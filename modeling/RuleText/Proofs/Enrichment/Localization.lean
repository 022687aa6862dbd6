import RuleText.Proofs.Enrichment.Depth
import RuleText.Proofs.Enrichment.DisplayTexts

/-!
# Localized texts are transparent

A reference to a localized text stands for the translation of its key. The pass for
blocks puts the enriched translation in its place, and of the outer text only the last
pass is still to come; where that finds nothing, the reference becomes just what its
translation becomes (`enrich_reference`).

The translation is enriched one level further down, so the reference needs a level more
than the translation alone. Where as many levels are left, a run that is not cut off comes
out the same under both limits (`extends_enrichWithin`).
-/

namespace RuleText.Enricher

open Directive

/-- A reference to the text of a key. -/
def reference (key : Text) : Occurrence := ⟨.block, "Localize".toList, key, none⟩

theorem text_reference (key : Text) :
    (reference key).text = '@' :: (("Localize".toList ++ ['[']) ++ (key ++ [']'])) := by
  simp [reference, Occurrence.text, displayText]

example : (reference "key".toList).text = "@Localize[key]".toList := by decide

namespace SimplePayload

variable {key : Text}

theorem not_newline_mem_text (h : SimplePayload key) : '\n' ∉ (reference key).text := by
  simp [text_reference, h.not_mem]

/-- The damage pass finds nothing in a reference. -/
theorem silent_damageBlock? (h : SimplePayload key) : Silent damageBlock? (reference key).text := by
  rw [text_reference]
  exact silent_damageBlock?_of_name_ne (by decide) (List.all_eq_true.mp (by decide)) (by decide)
    (h.not_mem (by decide))

/-- The block pass recognizes a reference as a whole. -/
theorem recognizes_block? (h : SimplePayload key) : Recognizes block? (reference key) :=
  Spells.recognizes (.block (by decide) (List.all_eq_true.mp (by decide)) h.ne_nil
    (h.not_mem (by decide))) none nofun

/-- The block pass puts the localized text in the place of a reference. -/
theorem passOver_block? (h : SimplePayload key) (data : RollData) (localize : Text → Resolve Text) :
    passOver block? (resolveBlock data localize) (reference key).text = localize key :=
  passOver_directive h.recognizes_block?

end SimplePayload

section Reference

variable {config : Config} {key : Text} (data : RollData)

/-- What a reference becomes is read once more by the pass for inline directives. -/
theorem enrichWith_reference (localize : Text → Resolve Text) (simple : SimplePayload key)
    (unmarked : Unmarked config (reference key).text) :
    enrichWith config data localize (reference key).text =
      localize key >>= passOver inline? (resolveInline data) := by
  have markup := markup_of_unmarked simple.not_newline_mem_text unmarked
  rw [enrichWith_of_markup data localize markup, passOver_of_silent simple.silent_damageBlock?,
    pure_bind, simple.passOver_block?]

variable {limit next : UInt64} (table : Translations)

/-- One level of the limit is taken by the reference, the others are left to its
translation. -/
theorem enrich_reference_eq (above : next.toNat = limit.toNat + 1) (simple : SimplePayload key)
    (unmarked : Unmarked config (reference key).text) :
    enrich ⟨limited config (some next), table⟩ data (reference key).text =
      enrichWithin ⟨limited config (some next), table⟩ data limit.toNat (table.translate key) >>=
        passOver inline? (resolveInline data) := by
  have levels : (⟨limited config (some next), table⟩ : Enricher).levels = limit.toNat + 1 := above
  rw [enrich, enrichWithin_eq, levels]
  exact enrichWith_reference data _ simple unmarked

/-- A reference becomes what the translation of its key becomes.

If the translation is enriched under a limit to a text without inline directives, then
the reference is enriched to the same text under the next limit, from the same counter to
the same counter. And an error of the translation is one of the reference, unless it is
that of the limit. -/
theorem enrich_reference (above : next.toNat = limit.toNat + 1) (simple : SimplePayload key)
    (unmarked : Unmarked config (reference key).text) (id : Nat) :
    (∀ out i, enrich ⟨limited config (some limit), table⟩ data (table.translate key) id =
        (.ok out, i) → found .inline out = [] →
      enrich ⟨limited config (some next), table⟩ data (reference key).text id = (.ok out, i)) ∧
    ∀ err i, enrich ⟨limited config (some limit), table⟩ data (table.translate key) id =
        (.error err, i) → ¬ IsCut (.error err) →
      enrich ⟨limited config (some next), table⟩ data (reference key).text id =
        (.error err, i) := by
  rw [enrich_reference_eq data table above simple unmarked]
  have inner : Extends (enrich ⟨limited config (some limit), table⟩ data (table.translate key))
      (enrichWithin ⟨limited config (some next), table⟩ data limit.toNat (table.translate key)) :=
    extends_enrichWithin config table data _ _ (Nat.le_refl _) _
  refine ⟨?_, ?_⟩
  · intro out i run silent
    have same := inner id (by rw [run]; exact not_isCut_ok out)
    have last : passOver inline? (resolveInline data) out = pure out :=
      passOver_of_found_eq_nil .inline silent
    rw [bind_run_ok (same.trans run), last]
    rfl
  · intro err i run whole
    have same := inner id (by rwa [run])
    exact bind_run_error (same.trans run)

end Reference

/-! ### A reference to damage and one to an unknown directive -/

/-- The texts of two keys. -/
def damageAndNope : Translations :=
  (Translations.empty.insert ['k'] damageWords.text).insert ['n'] "@Nope[z]".toList

theorem enrichWith_damageWords (data : RollData) (localize : Text → Resolve Text) (id : Nat) :
    enrichWith .default data localize damageWords.text id = (.ok (wordsSpan id), id + 1) := by
  have formed : damageWords.WellFormed :=
    wellFormed_of_payload (by decide) (by decide) (by decide) (by decide)
  have damage : passOver damageBlock? (resolveBlock data localize) damageWords.text =
      resolveBlock data localize damageWords :=
    passOver_directive (recognizes_damageBlock? formed ⟨rfl, rfl⟩)
  have block : Silent block? (wordsSpan id) :=
    opensBlock_block?.startsWith.silent ((plain_wordsSpan id).not_mem (by decide))
  have inline : Silent inline? (wordsSpan id) :=
    startsWith_inline?.silent ((plain_wordsSpan id).not_mem (by decide))
  rw [enrichWith_of_not_newline _ _ (by decide), damage,
    bind_run_ok (resolveBlock_damageWords data localize id), passOver_of_silent block, pure_bind,
    passOver_of_silent inline]
  rfl

/-- A reference to the damage becomes its span, and a reference to the unknown directive
is an unknown directive. -/
theorem enrich_reference_damageAndNope :
    enrich ⟨limited .default (some 1), damageAndNope⟩ .empty (reference ['k']).text 7 =
      (.ok (wordsSpan 7), 8) ∧
    enrich ⟨limited .default (some 1), damageAndNope⟩ .empty (reference ['n']).text 7 =
      (.error (.unknownDirective "@Nope[z]".toList), 7) := by
  have damage : enrich ⟨limited .default (some 0), damageAndNope⟩ .empty
      (damageAndNope.translate ['k']) 7 = (.ok (wordsSpan 7), 8) :=
    enrichWith_damageWords .empty _ 7
  have nope : enrich ⟨limited .default (some 0), damageAndNope⟩ .empty
      (damageAndNope.translate ['n']) 7 = (.error (.unknownDirective "@Nope[z]".toList), 7) :=
    enrichWith_nope .empty _ 7
  have inline : found .inline (wordsSpan 7) = [] :=
    found_eq_nil_of_silent (startsWith_inline?.silent ((plain_wordsSpan 7).not_mem (by decide)))
  have whole : ¬ IsCut (.error (.unknownDirective "@Nope[z]".toList)) := by
    rintro ⟨_, _, ⟨⟩⟩
  have key : SimplePayload ['k'] := by decide
  have otherKey : SimplePayload ['n'] := by decide
  have unmarked := unmarked_default key.not_newline_mem_text
  have otherUnmarked := unmarked_default otherKey.not_newline_mem_text
  exact ⟨(enrich_reference .empty damageAndNope rfl key unmarked 7).1 _ _ damage inline,
    (enrich_reference .empty damageAndNope rfl otherKey otherUnmarked 7).2 _ _ nope whole⟩

end RuleText.Enricher
