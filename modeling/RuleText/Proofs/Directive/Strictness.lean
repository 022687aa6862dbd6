import RuleText.Proofs.Arguments.Unused
import RuleText.Proofs.Enrichment.Errors

/-!
# Arguments of checks and templates

Checks and templates take their arguments in the same way. Some keys are ignored. The type
is the last value under the key `type` or, if that is missing or empty, the first piece, which
then counts as used and must not have been used before (`Typed`). The further keys are looked
up among the other pieces only, and a piece that is not used in the end is an error. So the
directive succeeds exactly if the other pieces have known keys, whatever their number and
order (`resolveBlock_check_template`).
-/

namespace RuleText

open Directive Arguments

namespace Arguments

/-- Marking the arguments with some keys as used. -/
theorem ignore_eq_useAll (args : Arguments) (keys : List Text) :
    args.ignore keys = args.useAll fun a => a.key ∈ keys := by
  unfold ignore
  induction keys generalizing args with
  | nil => simp [useAll]
  | cons key keys ih =>
    rw [List.foldl_cons, ih, takeKey, useAll, useAll, useAll, List.map_map]
    congr 2
    funext a
    by_cases here : a.key = key <;> by_cases later : a.key ∈ keys <;>
      simp [here, later, Argument.use]

end Arguments

namespace Directive

/-- The keys that are written as the given strings. -/
def keysOf (names : List String) : List Text :=
  names.map String.toList

/-- The pieces of a payload, each with its key and its value. -/
def piecesOfBlock (payload : Text) : List (Text × Text) :=
  (payload.splitOn '|').map fun piece => (Argument.ofText ':' piece).pair

theorem piecesOfBlock_ne_nil (payload : Text) : piecesOfBlock payload ≠ [] := by
  simp [piecesOfBlock, List.splitOn_ne_nil]

/-! ### The type -/

section Types

variable {ignored : List String} {pieces : List (Text × Text)}

/-- No piece under the key `type` gives a type. -/
def NoTypeKey (pieces : List (Text × Text)) : Prop :=
  ∀ value, lastOf "type".toList pieces = some value → value = []

/-- The type that pieces give, and the pieces among which further keys are looked up. -/
inductive Typed (ignored : List String) (pieces : List (Text × Text)) :
    Text → List (Text × Text) → Prop
  | byKey {type : Text} : lastOf "type".toList pieces = some type → type ≠ [] →
      Typed ignored pieces type pieces
  | byPlace {key type : Text} {others : List (Text × Text)} : NoTypeKey pieces →
      pieces = (key, type) :: others → key ∉ keysOf ignored → key ≠ "type".toList →
      Typed ignored pieces type others

/-- No piece under the key `type` gives a type, and the first piece has been used otherwise. -/
def Untyped (ignored : List String) (pieces : List (Text × Text)) : Prop :=
  NoTypeKey pieces ∧
    ∃ key value others, pieces = (key, value) :: others ∧
      (key ∈ keysOf ignored ∨ key = "type".toList)

theorem untyped_iff (some_pieces : pieces ≠ []) :
    Untyped ignored pieces ↔ ¬ ∃ type others, Typed ignored pieces type others := by
  constructor
  · rintro ⟨no_key, key, value, others, rfl, used⟩ ⟨type, _, typed⟩
    cases typed with
    | byKey found some_type => exact some_type (no_key _ found)
    | byPlace _ same unignored other =>
      obtain ⟨⟨rfl, rfl⟩, rfl⟩ := List.cons.inj same
      exact used.elim unignored other
  · intro none_typed
    have no_key : NoTypeKey pieces := by
      intro value found
      by_contra some_type
      exact none_typed ⟨value, pieces, .byKey found some_type⟩
    obtain ⟨⟨key, value⟩, others, rfl⟩ := List.exists_cons_of_ne_nil some_pieces
    refine ⟨no_key, key, value, others, rfl, ?_⟩
    by_contra unused
    rw [not_or] at unused
    exact none_typed ⟨value, others, .byPlace no_key rfl unused.1 unused.2⟩

end Types

/-! ### Running handlers -/

namespace Handler

variable {α β : Type} {x : Handler α} {f : α → Handler β} {args rest : Arguments} {id i : Nat}

theorem bind_run_ok {a : α} (h : x args id = (.ok (a, rest), i)) :
    (x >>= f) args id = f a rest i :=
  Enricher.bind_run_ok (f := fun found : α × Arguments => f found.1 found.2) h

theorem bind_run_error {e : EnrichmentError} (h : x args id = (.error e, i)) :
    (x >>= f) args id = (.error e, i) :=
  Enricher.bind_run_error (f := fun found : α × Arguments => f found.1 found.2) h

theorem typeOrFirst_of_key {type : Text} (found : lastOf "type".toList args.unused = some type)
    (some_type : type ≠ []) :
    typeOrFirst args id = (.ok (type, (args.takeKey "type".toList).2), id) := by
  have asked : nonempty "type" args id = (.ok (some type, (args.takeKey "type".toList).2), id) := by
    unfold nonempty
    rw [modifyGet_bind, takeValue_eq, found]
    show (Except.ok ((some type).filter (· ≠ []), _), id) = _
    rw [Option.filter_some, if_pos (decide_eq_true some_type)]
  exact bind_run_ok asked

theorem typeOrFirst_of_no_key (no_key : NoTypeKey args.unused) :
    typeOrFirst args id = Handler.index 0 (args.takeKey "type".toList).2 id := by
  have asked : nonempty "type" args id = (.ok (none, (args.takeKey "type".toList).2), id) := by
    unfold nonempty
    rw [modifyGet_bind, takeValue_eq]
    show (Except.ok (Option.filter (· ≠ []) (lastOf "type".toList args.unused), _), id) = _
    rw [Option.filter_eq_none_iff.mpr fun value found => by simpa using no_key value found]
  exact bind_run_ok asked

theorem index_of_head {a : Argument} {more : List Argument} (head : args.entries = a :: more) :
    Handler.index 0 args id =
      if a.used then (.error (.missingArgument 0), id)
      else (.ok (a.value, { args with entries := a.use :: more }), id) := by
  have taken : args.takeAt 0 =
      if a.used then (none, args) else (some a, { args with entries := a.use :: more }) := by
    simp [takeAt, head]
  unfold Handler.index
  rw [modifyGet_bind, takeIndex, taken]
  cases a.used <;> rfl

end Handler

/-! ### The type, taken -/

section TakingTypes

variable {keys : List Text} {ignored : List String} {payload label type : Text}
variable {others : List (Text × Text)} {id : Nat}

/-- The arguments of a block directive, of which those under some keys have been used. -/
def marked (keys : List Text) (payload label : Text) : Arguments :=
  (ofText payload '|' ':' label).ignore keys

theorem unused_marked :
    (marked keys payload label).unused = without keys (piecesOfBlock payload) := by
  rw [marked, unused_ignore, unused_ofText, pairs, ofText, List.map_map]
  rfl

theorem takeKey_marked {key : Text} :
    ((marked keys payload label).takeKey key).2 = marked (keys ++ [key]) payload label := by
  rw [marked, marked, ignore, ignore, List.foldl_append]
  rfl

/-- The first piece as an argument. -/
theorem exists_head_marked {key value : Text}
    (pieces : piecesOfBlock payload = (key, value) :: others) :
    ∃ a more, (marked keys payload label).entries = a :: more ∧ a.pair = (key, value) ∧
      (a.used = true ↔ key ∈ keys) := by
  obtain ⟨t, more, cut, pair, -⟩ := List.map_eq_cons_iff.mp pieces
  have fresh : (Argument.ofText ':' t).used = false := by
    have here : Argument.ofText ':' t ∈ (ofText payload '|' ':' label).left := by
      rw [left_ofText]
      exact List.mem_map_of_mem (cut ▸ List.mem_cons_self)
    simpa using (List.mem_filter.mp here).2
  have key_eq : (Argument.ofText ':' t).key = key := congrArg Prod.fst pair
  rw [marked, ignore_eq_useAll, useAll, ofText, cut]
  refine ⟨_, _, rfl, ?_, ?_⟩
  · rw [← pair]
    by_cases known : key ∈ keys <;> simp [key_eq, known, Argument.use, Argument.pair]
  · by_cases known : key ∈ keys <;> simp [key_eq, known, Argument.use, fresh]

/-- The type is taken, and what is left are the other pieces. -/
theorem typeOrFirst_of_typed (label : Text) (id : Nat) (other : "type".toList ∉ keysOf ignored)
    (typed : Typed ignored (piecesOfBlock payload) type others) :
    ∃ rest,
      Handler.typeOrFirst (marked (keysOf ignored) payload label) id = (.ok (type, rest), id) ∧
      rest.unused = without (keysOf ignored ++ ["type".toList]) others := by
  cases typed with
  | byKey found some_type =>
    refine ⟨_, Handler.typeOrFirst_of_key ?_ some_type, ?_⟩
    · rw [unused_marked, lastOf_without other, found]
    · rw [takeKey_marked, unused_marked]
  | @byPlace key _ _ no_key pieces unignored untyped =>
    have unknown : key ∉ keysOf ignored ++ ["type".toList] := by
      simpa using ⟨unignored, untyped⟩
    obtain ⟨a, more, head, pair, used⟩ : ∃ a more, (marked (keysOf ignored ++ ["type".toList])
        payload label).entries = a :: more ∧ _ := exists_head_marked pieces
    have fresh : a.used = false := eq_false_of_ne_true (mt used.mp unknown)
    have left := unused_of_head _ head fresh
    rw [unused_marked, pieces, without, List.filter_cons_of_pos (by simpa using unknown)] at left
    refine ⟨{ marked (keysOf ignored ++ ["type".toList]) payload label with
      entries := a.use :: more }, ?_, (List.cons.inj left).2.symm⟩
    rw [Handler.typeOrFirst_of_no_key, takeKey_marked, Handler.index_of_head head, fresh,
      ← show a.value = type from congrArg Prod.snd pair]
    · rfl
    · rwa [NoTypeKey, unused_marked, lastOf_without other]

theorem typeOrFirst_of_untyped (other : "type".toList ∉ keysOf ignored)
    (untyped : Untyped ignored (piecesOfBlock payload)) :
    Handler.typeOrFirst (marked (keysOf ignored) payload label) id =
      (.error (.missingArgument 0), id) := by
  obtain ⟨no_key, key, value, others, pieces, known⟩ := untyped
  obtain ⟨a, more, head, -, used⟩ : ∃ a more, (marked (keysOf ignored ++ ["type".toList])
      payload label).entries = a :: more ∧ _ := exists_head_marked pieces
  rw [Handler.typeOrFirst_of_no_key, takeKey_marked, Handler.index_of_head head,
    used.mpr (by simpa using known)]
  · rfl
  · rwa [NoTypeKey, unused_marked, lastOf_without other]

end TakingTypes

/-! ### Whole directives -/

section Whole

variable {ignored : List String} {payload label type : Text} {others : List (Text × Text)}
variable {next : Text → Handler Text} {id : Nat}

theorem handle_eq (args : Arguments) (handler : Handler Text) (id : Nat) :
    handle args handler id = (args.outcome (handler args id).1, (handler args id).2) := rfl

/-- A directive that ignores some keys, takes its type and goes on with it. -/
def takingType (ignored : List String) (next : Text → Handler Text) : Handler Text := do
  Handler.ignore ignored
  next (← Handler.typeOrFirst)

theorem takingType_run :
    takingType ignored next (ofText payload '|' ':' label) id =
      (Handler.typeOrFirst >>= next) (marked (keysOf ignored) payload label) id := rfl

/-- Without a type the directive fails. -/
theorem handle_of_untyped (other : "type".toList ∉ keysOf ignored)
    (untyped : Untyped ignored (piecesOfBlock payload)) :
    handle (ofText payload '|' ':' label) (takingType ignored next) id =
      (.error (.annotated label payload (.missingArgument 0)), id) := by
  rw [handle_eq, takingType_run, Handler.bind_run_error (typeOrFirst_of_untyped other untyped)]
  rfl

/-- With a type the directive comes to what the rest of it comes to. -/
theorem handle_of_typed (label : Text) (next : Text → Handler Text) (id : Nat)
    (other : "type".toList ∉ keysOf ignored)
    (typed : Typed ignored (piecesOfBlock payload) type others) :
    ∃ rest, rest.unused = without (keysOf ignored ++ ["type".toList]) others ∧
      handle (ofText payload '|' ':' label) (takingType ignored next) id =
        ((ofText payload '|' ':' label).outcome (next type rest id).1, (next type rest id).2) := by
  obtain ⟨rest, taken, unused⟩ := typeOrFirst_of_typed label id other typed
  refine ⟨rest, unused, ?_⟩
  rw [handle_eq, takingType_run, Handler.bind_run_ok taken]

end Whole

/-! ### Checks -/

/-- The text of a check of a type, which may be basic and may have a difficulty. -/
def checkText (type : Text) (basic : Bool) (dc : Option Text) : StateM Nat Text :=
  match basic, dc with
  | true, some dc => return "DC ".toList ++ dc ++ " basic ".toList ++ Text.titleCase type
  | true, none => return "basic ".toList ++ Text.titleCase type
  | false, none => return Text.titleCase type
  | false, some dc => do
    if type = "flat".toList then return "DC ".toList ++ dc ++ " Flat Check".toList
    else return "DC ".toList ++ (← span dc "dc".toList) ++ ' ' :: Text.titleCase type

theorem check_eq_takingType (data : RollData) :
    ∃ next, check data = takingType checkIgnored next ∧ ∀ type rest id,
      let text := checkText type (flagOf "basic".toList rest.unused)
        ((lastOf "dc".toList rest.unused).map data.resolve) id
      next type rest id =
        (.ok (text.1, ((rest.takeKey "basic".toList).2.takeKey "dc".toList).2), text.2) := by
  refine ⟨_, rfl, ?_⟩
  intro type rest id
  have dc_of_rest : lastOf "dc".toList (rest.takeKey "basic".toList).2.unused =
      lastOf "dc".toList rest.unused := by
    rw [unused_takeKey]
    exact lastOf_without (by decide)
  rw [Handler.modifyGet_bind, takeFlag_eq_flagOf, Handler.modifyGet_bind, takeResolved_eq,
    dc_of_rest]
  unfold checkText
  cases flagOf "basic".toList rest.unused <;>
    cases (lastOf "dc".toList rest.unused).map data.resolve
  · rfl
  · by_cases flat : type = "flat".toList
    · simp only [if_pos flat]
      rfl
    · simp only [if_neg flat]
      rfl
  · rfl
  · rfl

/-! ### Templates -/

/-- The text of a template of a shape, with its distance and perhaps a width. -/
def templateText (shape distance : Text) (width : Option Text) : Text :=
  match width with
  | some width => distance ++ "-foot (".toList ++ width ++ "-foot wide) ".toList ++ shape
  | none => distance ++ "-foot ".toList ++ shape

/-- The keys of sizes that a template of a shape knows. -/
def sizeKeys (shape : Text) : List String :=
  if shape = "line".toList then ["distance", "width"] else ["distance"]

theorem template_eq_takingType (data : RollData) :
    ∃ next, template data = takingType templateIgnored next ∧ ∀ shape rest id,
      (lastOf "distance".toList rest.unused = none →
        next shape rest id = (.error (.missingKey "distance".toList), id)) ∧
      ∀ distance, lastOf "distance".toList rest.unused = some distance →
        ∃ rest', rest'.unused = without (keysOf (sizeKeys shape)) rest.unused ∧
          next shape rest id = (.ok (templateText shape (data.resolve distance)
            (if shape = "line".toList then (lastOf "width".toList rest.unused).map data.resolve
              else none), rest'), id) := by
  refine ⟨_, rfl, ?_⟩
  intro shape rest id
  rw [Handler.modifyGet_bind, takeResolved_eq]
  constructor
  · intro missing
    rw [missing]
    rfl
  · intro distance found
    rw [found]
    have width_of_rest : lastOf "width".toList (rest.takeKey "distance".toList).2.unused =
        lastOf "width".toList rest.unused := by
      rw [unused_takeKey]
      exact lastOf_without (by decide)
    by_cases line : shape = "line".toList
    · refine ⟨((rest.takeKey "distance".toList).2.takeKey "width".toList).2, ?_, ?_⟩
      · rw [unused_takeKey, unused_takeKey, without_without, sizeKeys, if_pos line]
        rfl
      · simp only [Option.map_some, if_pos line]
        rw [Handler.modifyGet_bind, takeResolved_eq, width_of_rest]
        cases lastOf "width".toList rest.unused <;> rfl
    · refine ⟨(rest.takeKey "distance".toList).2, ?_, ?_⟩
      · rw [unused_takeKey, sizeKeys, if_neg line]
        rfl
      · simp only [Option.map_some, if_neg line]
        rfl

end Directive

namespace Enricher

/-! ### Blocks -/

/-- The keys of a block are looked up by equality of texts. -/
local instance : LawfulBEq Text := inferInstance

/-- What a block comes to that has become a text and has used the pieces with some keys. -/
def strictly (keys : List String) (others : List (Text × Text)) (label payload text : Text) :
    Except EnrichmentError Text :=
  if ∀ piece ∈ others, piece.1 ∈ keysOf keys then .ok text
  else .error (.annotated label payload (leftover (without (keysOf keys) others)))

section Blocks

variable {payload label type : Text} {others : List (Text × Text)} {rest : Arguments}

theorem outcome_eq_strictly {keys : List String} {text : Text}
    (left : rest.unused = without (keysOf keys) others) :
    (ofText payload '|' ':' label).outcome (.ok (text, rest)) =
      strictly keys others label payload text := by
  rw [outcome_ok, strictly, left]
  simp only [without_eq_nil]
  rfl

variable (data : RollData) (localize : Text → Resolve Text) (id : Nat)

/-- A check block without a display text. -/
def checkBlock (payload : Text) : Occurrence := ⟨.block, "Check".toList, payload, none⟩

/-- A template block without a display text. -/
def templateBlock (payload : Text) : Occurrence := ⟨.block, "Template".toList, payload, none⟩

theorem resolveBlock_checkBlock :
    resolveBlock data localize (checkBlock payload) =
      handle (ofText payload '|' ':' "@Check".toList) (check data) := rfl

theorem resolveBlock_templateBlock :
    resolveBlock data localize (templateBlock payload) =
      handle (ofText payload '|' ':' "@Template".toList) (template data) := rfl

/-- The keys that a check knows. -/
def checkKeys : List String := checkIgnored ++ ["type", "basic", "dc"]

/-- The keys that a template of a shape knows. -/
def templateKeys (shape : Text) : List String := templateIgnored ++ "type" :: sizeKeys shape

theorem resolveBlock_check_of_typed
    (typed : Typed checkIgnored (piecesOfBlock payload) type others) :
    let text := checkText type (flagOf "basic".toList others)
      ((lastOf "dc".toList others).map data.resolve) id
    resolveBlock data localize (checkBlock payload) id =
      (strictly checkKeys others "@Check".toList payload text.1, text.2) := by
  obtain ⟨next, taking, run⟩ := check_eq_takingType data
  obtain ⟨rest, left, handled⟩ := handle_of_typed "@Check".toList next id (by decide) typed
  have basic : flagOf "basic".toList rest.unused = flagOf "basic".toList others := by
    rw [left]
    exact flagOf_without (by decide)
  have dc : lastOf "dc".toList rest.unused = lastOf "dc".toList others := by
    rw [left]
    exact lastOf_without (by decide)
  rw [resolveBlock_checkBlock, taking, handled, run, basic, dc]
  dsimp only
  rw [outcome_eq_strictly]
  rw [unused_takeKey, unused_takeKey, left, without_without, without_without]
  rfl

theorem resolveBlock_template_of_typed
    (typed : Typed templateIgnored (piecesOfBlock payload) type others) :
    (lastOf "distance".toList others = none →
      resolveBlock data localize (templateBlock payload) id =
        (.error (.annotated "@Template".toList payload (.missingKey "distance".toList)), id)) ∧
    ∀ distance, lastOf "distance".toList others = some distance →
      resolveBlock data localize (templateBlock payload) id =
        (strictly (templateKeys type) others "@Template".toList payload
          (templateText type (data.resolve distance)
            (if type = "line".toList then (lastOf "width".toList others).map data.resolve
              else none)), id) := by
  obtain ⟨next, taking, run⟩ := template_eq_takingType data
  obtain ⟨rest, left, handled⟩ := handle_of_typed "@Template".toList next id (by decide) typed
  have distance_of_rest : lastOf "distance".toList rest.unused =
      lastOf "distance".toList others := by
    rw [left]
    exact lastOf_without (by decide)
  have width_of_rest : lastOf "width".toList rest.unused = lastOf "width".toList others := by
    rw [left]
    exact lastOf_without (by decide)
  rw [resolveBlock_templateBlock, taking, handled, ← distance_of_rest, ← width_of_rest]
  obtain ⟨missing, given⟩ := run type rest id
  constructor
  · intro none_found
    rw [missing none_found]
    rfl
  · intro distance found
    obtain ⟨rest', left', made⟩ := given distance found
    rw [made]
    dsimp only
    rw [outcome_eq_strictly]
    rw [left', left, without_without, templateKeys, keysOf, keysOf, keysOf, List.map_append,
      List.append_assoc]
    rfl

end Blocks

/-- Checks and templates are strict about their arguments and complete. A type is missing
exactly if no piece gives one, and then they fail. With a type, a template without a distance
among the other pieces fails. Otherwise they become their texts exactly if all other pieces
have known keys, and else fail with what is left over. -/
theorem resolveBlock_check_template (data : RollData) (localize : Text → Resolve Text)
    (payload : Text) (id : Nat) :
    let pieces := piecesOfBlock payload
    let check := resolveBlock data localize (checkBlock payload) id
    let template := resolveBlock data localize (templateBlock payload) id
    (∀ ignored, Untyped ignored pieces ↔ ¬ ∃ type others, Typed ignored pieces type others) ∧
    (Untyped checkIgnored pieces →
      check = (.error (.annotated "@Check".toList payload (.missingArgument 0)), id)) ∧
    (∀ type others, Typed checkIgnored pieces type others →
      let text := checkText type (flagOf "basic".toList others)
        ((lastOf "dc".toList others).map data.resolve) id
      check = (strictly checkKeys others "@Check".toList payload text.1, text.2)) ∧
    (Untyped templateIgnored pieces →
      template = (.error (.annotated "@Template".toList payload (.missingArgument 0)), id)) ∧
    ∀ shape others, Typed templateIgnored pieces shape others →
      ((∀ piece ∈ others, piece.1 ≠ "distance".toList) →
        template =
          (.error (.annotated "@Template".toList payload (.missingKey "distance".toList)), id)) ∧
      ∀ distance, lastOf "distance".toList others = some distance →
        template =
          (strictly (templateKeys shape) others "@Template".toList payload
            (templateText shape (data.resolve distance)
              (if shape = "line".toList then (lastOf "width".toList others).map data.resolve
                else none)), id) := by
  refine ⟨fun ignored => untyped_iff (piecesOfBlock_ne_nil payload), ?_, ?_, ?_, ?_⟩
  · intro untyped
    obtain ⟨next, taking, -⟩ := check_eq_takingType data
    rw [resolveBlock_checkBlock, taking, handle_of_untyped (by decide) untyped]
  · intro type others typed
    exact resolveBlock_check_of_typed data localize id typed
  · intro untyped
    obtain ⟨next, taking, -⟩ := template_eq_takingType data
    rw [resolveBlock_templateBlock, taking, handle_of_untyped (by decide) untyped]
  · intro shape others typed
    obtain ⟨missing, given⟩ := resolveBlock_template_of_typed data localize id typed
    exact ⟨fun none_found => missing (lastOf_eq_none.mpr none_found), given⟩

/-- A check with its type in front, with an argument that no check knows. -/
def secretReflex : Text := "reflex|dc:20|secret".toList

/-- A template with its type under a key, behind another argument. -/
def wideLine : Text := "width:10|type:line|distance:60".toList

theorem resolveBlock_secretReflex_and_wideLine :
    resolveBlock .empty pure (checkBlock secretReflex) 1 =
      (.error (.annotated "@Check".toList secretReflex (.unconsumed [] ["secret".toList])), 2) ∧
    resolveBlock .empty pure (templateBlock wideLine) 1 =
      (.ok "60-foot (10-foot wide) line".toList, 1) := by
  have check : Typed checkIgnored (piecesOfBlock secretReflex) "reflex".toList
      [("dc".toList, "20".toList), ("secret".toList, "secret".toList)] := by
    refine .byPlace ?_ rfl (by decide) (by decide)
    intro value found
    cases found
  have template : Typed templateIgnored (piecesOfBlock wideLine) "line".toList
      (piecesOfBlock wideLine) :=
    .byKey (by decide) (by decide)
  constructor
  · exact (resolveBlock_check_template .empty pure secretReflex 1).2.2.1 _ _ check
  · exact ((resolveBlock_check_template .empty pure wideLine 1).2.2.2.2 _ _ template).2
      "60".toList (by decide)

end Enricher

end RuleText
