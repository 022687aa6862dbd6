import RuleText.Proofs.Directive.Strictness
import RuleText.Proofs.Formula.Completeness
import RuleText.Proofs.Text.Replacement

/-!
# Damage with and without spans

An instance of damage is written in two ways: by itself, and in a directive, where the
magnitude of each group stands in a span with a number of its own. What follows a magnitude, the
tags of its group and the word between groups, is the same in both texts (`Instance.following`).
So the text in a directive is the text of the instance with its magnitudes in spans that are
numbered from the counter on (`text_eq_woven`, `damageText_eq`).

A damage directive puts this text in one more span, with the next number, and words that are no
formula in a span as they are (`damage_in_spans`).
-/

namespace RuleText

namespace Text

/-- Each text with the text of the other list behind it. -/
def woven (ts following : List Text) : Text :=
  (List.zipWith (· ++ ·) ts following).flatten

/-- The texts with a separator behind each but the last. -/
def parted (sep : Text) : List Text → List Text
  | [] => []
  | [t] => [t]
  | t :: u :: more => (t ++ sep) :: parted sep (u :: more)

variable {sep : Text} {ts us : List Text}

theorem length_parted (us : List Text) : (parted sep us).length = us.length := by
  fun_induction parted sep us with
  | case1 => rfl
  | case2 => rfl
  | case3 t u more ih =>
    rw [List.length_cons, ih]
    rfl

theorem joined_zipWith (same : ts.length = us.length) :
    joined sep (List.zipWith (· ++ ·) ts us) = woven ts (parted sep us) := by
  fun_induction parted sep us generalizing ts with
  | case1 =>
    obtain rfl := List.length_eq_zero_iff.mp same
    rfl
  | case2 u =>
    obtain ⟨t, rfl⟩ := List.length_eq_one_iff.mp same
    simp [woven, joined_singleton]
  | case3 u v more ih =>
    obtain ⟨t, ts, rfl⟩ := List.exists_cons_of_length_eq_add_one same
    obtain ⟨s, ts, rfl⟩ := List.exists_cons_of_length_eq_add_one (Nat.succ.inj same)
    have rest := ih (Nat.succ.inj same)
    rw [List.zipWith_cons_cons, joined_cons _ (by simp), rest]
    simp [woven]

end Text

namespace Damage

/-- What stands behind the magnitude in the text of a group. A short label has no tags. -/
def Group.label (short : Bool) (g : Group) : Text :=
  if short then [] else g.tags.flatMap fun tag => ' ' :: tag

namespace Instance

/-- The magnitudes of the groups. -/
def magnitudes (i : Instance) : List Text :=
  i.groups.map Group.magnitude

/-- What follows each magnitude in the text of the instance: the tags of the group, unless the
label is short, and the word between groups, unless the group is the last. -/
def following (i : Instance) : List Text :=
  Text.parted " plus ".toList (i.groups.map (Group.label i.shortLabel))

theorem length_following (i : Instance) : i.following.length = i.magnitudes.length := by
  rw [following, Text.length_parted, magnitudes, List.length_map, List.length_map]

theorem text_eq_woven (i : Instance) : i.text = Text.woven i.magnitudes i.following := by
  have groups : (i.groups.map fun g => if i.shortLabel then g.magnitude else g.text) =
      List.zipWith (· ++ ·) i.magnitudes (i.groups.map (Group.label i.shortLabel)) := by
    rw [magnitudes, List.zipWith_map, List.zipWith_self]
    refine List.map_congr_left fun g _ => ?_
    cases i.shortLabel with
    | true => exact (List.append_nil _).symm
    | false => rfl
  rw [text, groups, Text.joined_zipWith (by simp [magnitudes]), following]

end Instance

end Damage

namespace Directive

open Handler Arguments

/-! ### Spans -/

/-- A text in a span whose opening tag is given up to its number. -/
def numberedSpan (tag : String) (id : ℕ) (text : Text) : Text :=
  tag.toList ++ (Text.ofNat id ++ ("\">".toList ++ (text ++ "</span>".toList)))

/-- The span of a damage directive. -/
def damageSpan : ℕ → Text → Text :=
  numberedSpan "<span class=\"statistic-damage\" id=\"statistic-damage-"

/-- The span of the magnitude of a group. -/
def diceSpan : ℕ → Text → Text :=
  numberedSpan "<span class=\"statistic-damage-dice\" id=\"statistic-damage-dice-"

/-- Magnitudes in spans that are numbered from `n` on. -/
def diceSpans (n : ℕ) (magnitudes : List Text) : List Text :=
  magnitudes.mapIdx fun i magnitude => diceSpan (n + i) magnitude

theorem spanText_eq_numberedSpan {cls tag : String}
    (same : tag = "<span class=\"statistic-" ++ cls ++ "\" id=\"statistic-" ++ cls ++ "-")
    (id : ℕ) (text : Text) : spanText id text cls.toList = numberedSpan tag id text := by
  have dash : "-".toList = ['-'] := rfl
  rw [numberedSpan, same]
  unfold spanText
  simp only [String.toList_append, dash, List.append_assoc, List.cons_append, List.nil_append]

theorem spanText_damage (id : ℕ) (text : Text) :
    spanText id text "damage".toList = damageSpan id text :=
  spanText_eq_numberedSpan (by simp) id text

theorem spanText_dice (id : ℕ) (magnitude : Text) :
    spanText id magnitude "damage-dice".toList = diceSpan id magnitude :=
  spanText_eq_numberedSpan (by simp) id magnitude

theorem diceSpans_cons (n : ℕ) (magnitude : Text) (more : List Text) :
    diceSpans n (magnitude :: more) = diceSpan n magnitude :: diceSpans (n + 1) more := by
  simp [diceSpans, List.mapIdx_cons, Nat.add_assoc, Nat.add_comm 1]

theorem length_diceSpans (n : ℕ) (magnitudes : List Text) :
    (diceSpans n magnitudes).length = magnitudes.length :=
  List.length_mapIdx

/-! ### The text in a directive -/

/-- Each group takes one number for its magnitude. -/
theorem damageGroups_eq (short : Bool) (groups : List Damage.Group) (n : ℕ) :
    damageGroups short groups n =
      (List.zipWith (· ++ ·) (diceSpans n (groups.map Damage.Group.magnitude))
        (groups.map (Damage.Group.label short)), n + groups.length) := by
  induction groups generalizing n with
  | nil => rfl
  | cons g groups ih =>
    have step : damageGroups short (g :: groups) n =
        ((spanText n g.magnitude "damage-dice".toList ++ g.label short) ::
          (damageGroups short groups (n + 1)).1, (damageGroups short groups (n + 1)).2) := rfl
    rw [step, ih, spanText_dice, List.map_cons, List.map_cons, diceSpans_cons, List.length_cons,
      List.zipWith_cons_cons, Nat.add_right_comm, ← Nat.add_assoc]

/-- An instance in a directive is its text with the magnitudes in spans. -/
theorem damageText_eq (i : Damage.Instance) (n : ℕ) :
    damageText i n =
      (Text.woven (diceSpans n i.magnitudes) i.following, n + i.groups.length) := by
  have joins : damageText i n =
      (Text.joined " plus ".toList (damageGroups i.shortLabel i.groups n).1,
        (damageGroups i.shortLabel i.groups n).2) := rfl
  have same : (diceSpans n i.magnitudes).length =
      (i.groups.map (Damage.Group.label i.shortLabel)).length := by
    rw [length_diceSpans, Damage.Instance.magnitudes, List.length_map, List.length_map]
  rw [joins, damageGroups_eq]
  exact congrArg (·, n + i.groups.length) (Text.joined_zipWith same)

/-! ### The directive -/

/-- What a damage directive makes of its formula. -/
def damageOf (data : RollData) (formula : Text) (shortLabel : Bool) : Handler Text :=
  match Damage.Payload.ofText data formula with
  | .error e => fail (.evaluation e)
  | .ok (.evaluated i) => do
    let inner ← damageText { i with shortLabel }
    span inner "damage".toList
  | .ok (.literal text _) => span text "damage".toList

section Run

variable {args : Arguments} {first : Argument}

/-- The first argument is taken, and what is left are the other arguments. -/
theorem index_ignore (head : args.entries.head? = some first) (fresh : first.used = false)
    {ignored : List Text} (unignored : first.key ∉ ignored) :
    ∃ rest, rest.unused = without ignored args.unused.tail ∧
      ∀ n, Handler.index 0 (args.ignore ignored) n = (.ok (first.value, rest), n) := by
  obtain ⟨more, entries⟩ := List.head?_eq_some_iff.mp head
  obtain ⟨more', entries'⟩ : ∃ more', (args.ignore ignored).entries = first :: more' := by
    rw [ignore_eq_useAll, useAll, entries, List.map_cons, if_neg (by simpa using unignored)]
    exact ⟨_, rfl⟩
  refine ⟨{ args.ignore ignored with entries := first.use :: more' }, ?_, fun n => ?_⟩
  · have whole := unused_of_head (args.ignore ignored) entries' fresh
    rw [unused_ignore, unused_of_head args entries fresh, without_cons unignored] at whole
    rw [unused_of_head args entries fresh, List.tail_cons]
    exact (List.cons.inj whole).2.symm
  · rw [index_of_head entries', fresh]
    rfl

/-- A damage directive takes its formula and the flag for a short label. -/
theorem exists_damage_eq (head : args.entries.head? = some first) (fresh : first.used = false)
    (unignored : first.key ∉ keysOf damageIgnored) :
    ∃ left, left.unused = without (keysOf (damageIgnored ++ ["shortLabel"])) args.unused.tail ∧
      ∀ data n, damage data args n =
        damageOf data first.value (flagOf "shortLabel".toList args.unused.tail) left n := by
  obtain ⟨rest, unused, taken⟩ := index_ignore head fresh unignored
  refine ⟨(rest.takeKey "shortLabel".toList).2, ?_, fun data n => ?_⟩
  · rw [unused_takeKey, unused, without_without, keysOf, keysOf, List.map_append]
    rfl
  · have step : damage data args n =
        (Handler.index 0 >>= fun formula =>
          modifyGet (takeFlag "shortLabel".toList false) >>= damageOf data formula)
          (args.ignore (keysOf damageIgnored)) n := rfl
    rw [step, bind_run_ok (taken n), modifyGet_bind, takeFlag_eq_flagOf, unused,
      flagOf_without (by decide)]

end Run

section Outcomes

variable {data : RollData} {formula : Text} {shortLabel : Bool} {n : ℕ}

theorem damageOf_evaluated {i : Damage.Instance}
    (payload : Damage.Payload.ofText data formula = .ok (.evaluated i)) (left : Arguments) :
    damageOf data formula shortLabel left n =
      (.ok (damageSpan (n + i.groups.length) (damageText { i with shortLabel } n).1, left),
        n + i.groups.length + 1) := by
  have run : damageOf data formula shortLabel left n =
      (.ok (spanText (damageText { i with shortLabel } n).2 (damageText { i with shortLabel } n).1
        "damage".toList, left), (damageText { i with shortLabel } n).2 + 1) := by
    rw [damageOf, payload]
    rfl
  rw [run, spanText_damage, damageText_eq]

theorem damageOf_unparsed {e : Formula.ParseError} (unparsed : Formula.parse formula = .error e)
    (left : Arguments) :
    damageOf data formula shortLabel left n = (.ok (damageSpan n formula, left), n + 1) := by
  rw [damageOf, Damage.Payload.ofText, unparsed, ← spanText_damage]
  rfl

end Outcomes

/-- The text of an instance consists of its magnitudes and of what follows each. In a directive
it is the same but for the spans of the magnitudes, which have the numbers from `n` on. A damage
directive takes its first argument as its formula. The text of the instance that this evaluates
to stands in a span with the next number, and a text that is no formula in a span as it is. -/
theorem damage_in_spans (data : RollData) (args : Arguments) (n : ℕ) :
    (∀ i : Damage.Instance,
      i.magnitudes.length = i.groups.length ∧ i.following.length = i.groups.length ∧
      i.text = Text.woven i.magnitudes i.following ∧
      damageText i n =
        (Text.woven (diceSpans n i.magnitudes) i.following, n + i.groups.length)) ∧
    ∀ first, args.entries.head? = some first → first.used = false →
      first.key ∉ keysOf damageIgnored →
      ∃ left, left.unused = without (keysOf (damageIgnored ++ ["shortLabel"])) args.unused.tail ∧
        (∀ i, Damage.Payload.ofText data first.value = .ok (.evaluated i) →
          let shown := { i with shortLabel := flagOf "shortLabel".toList args.unused.tail }
          damage data args n =
            (.ok (damageSpan (n + i.groups.length)
              (Text.woven (diceSpans n shown.magnitudes) shown.following), left),
              n + i.groups.length + 1)) ∧
        ∀ e, Formula.parse first.value = .error e →
          damage data args n = (.ok (damageSpan n first.value, left), n + 1) := by
  refine ⟨fun i => ⟨List.length_map _, ?_, i.text_eq_woven, damageText_eq i n⟩, ?_⟩
  · rw [i.length_following, Damage.Instance.magnitudes, List.length_map]
  · intro first head fresh unignored
    obtain ⟨left, unused, run⟩ := exists_damage_eq head fresh unignored
    refine ⟨left, unused, fun i payload => ?_, fun e unparsed => ?_⟩
    · rw [run, damageOf_evaluated payload, damageText_eq]
    · rw [run, damageOf_unparsed unparsed]

/-- Two groups, the first of them with a tag. -/
def fireAndDice : Damage.Instance :=
  ⟨[⟨[.dice ⟨1, 6, 0⟩], ["fire".toList]⟩, ⟨[.dice ⟨1, 4, 0⟩], []⟩], false⟩

theorem ofText_fireAndDice :
    Damage.Payload.ofText .empty "d6[fire],d4".toList = .ok (.evaluated fireAndDice) := by
  let die : Formula.Token := ⟨.dice, 0, "d6".toList⟩
  let opening : Formula.Token := ⟨.leftBracket, 2, ['[']⟩
  let word : Formula.Token := ⟨.name, 3, "fire".toList⟩
  let closing : Formula.Token := ⟨.rightBracket, 7, [']']⟩
  let comma : Formula.Token := ⟨.comma, 8, [',']⟩
  let die' : Formula.Token := ⟨.dice, 9, "d4".toList⟩
  have tokens : Formula.Token.ofText "d6[fire],d4".toList =
      ([die] ++ opening :: ([word] ++ [closing])) ++ comma :: [die'] := by decide +kernel
  have dice : Formula.Derives .value [die] (.dice 1 6) :=
    .bare (.dice rfl (Formula.writesDice_one rfl (by decide)))
  have fire : Formula.Derives .tags [word] [.name "fire".toList] := .oneTag (.tagName rfl (.nil _))
  have tagged : Formula.Derives .addition ([die] ++ opening :: ([word] ++ [closing])) _ :=
    .addition_of_value (.tagged dice rfl fire rfl)
  have dice' : Formula.Derives .addition [die'] (.dice 1 4) :=
    .addition_of_value (.bare (.dice rfl (Formula.writesDice_one rfl (by decide))))
  have parsed : Formula.parse "d6[fire],d4".toList =
      .ok (.tuple [.tagged (.dice 1 6) [.name "fire".toList], .dice 1 4]) := by
    rw [Formula.parse_eq_ok_iff, tokens]
    exact .tuple (.moreItems tagged rfl (.item dice')) (by decide)
  rw [Damage.Payload.ofText, parsed]
  rfl

theorem woven_fireAndDice :
    Text.woven (diceSpans 5 fireAndDice.magnitudes) fireAndDice.following =
      diceSpan 5 "1d6".toList ++ (" fire plus ".toList ++ diceSpan 6 "1d4".toList) := by
  have magnitudes : fireAndDice.magnitudes = ["1d6".toList, "1d4".toList] := by decide
  have following : fireAndDice.following = [" fire plus ".toList, []] := by decide
  rw [magnitudes, following]
  simp [Text.woven, diceSpans]

theorem damage_fireAndDice_and_words :
    (∃ left, damage .empty (ofText "d6[fire],d4".toList '|' ':' "@Damage".toList) 5 =
      (.ok (damageSpan 7 (diceSpan 5 "1d6".toList ++
        (" fire plus ".toList ++ diceSpan 6 "1d4".toList)), left), 8)) ∧
    ∃ left, damage .empty (ofText ['?'] '|' ':' "@Damage".toList) 8 =
      (.ok (damageSpan 8 ['?'], left), 9) := by
  constructor
  · obtain ⟨left, -, run, -⟩ :=
      (damage_in_spans .empty (ofText "d6[fire],d4".toList '|' ':' "@Damage".toList) 5).2
        ⟨"d6[fire],d4".toList, "d6[fire],d4".toList, false⟩ rfl rfl (by decide)
    have label : flagOf "shortLabel".toList
        (ofText "d6[fire],d4".toList '|' ':' "@Damage".toList).unused.tail = false := by
      rw [unused_ofText]
      rfl
    refine ⟨left, ?_⟩
    rw [run fireAndDice ofText_fireAndDice, label, ← woven_fireAndDice]
    rfl
  · obtain ⟨e, unparsed⟩ := Enricher.parse_words
    obtain ⟨left, -, -, run⟩ :=
      (damage_in_spans .empty (ofText ['?'] '|' ':' "@Damage".toList) 8).2
        ⟨['?'], ['?'], false⟩ rfl rfl (by decide)
    exact ⟨left, run e unparsed⟩

end Directive

end RuleText
