import RuleText.Proofs.Directive.Scanning
import RuleText.Proofs.Enrichment.Locality

/-!
# Display texts

A directive with a display text becomes that text, whatever its name and its payload
are: neither is looked at. The pass that finds the directive writes the display text,
and no number is used up (`enrich_displays`).

The other passes read the display text too, the earlier ones while it stands in its
braces and the later ones when it has been written. What they find in it they resolve,
so a display text with directives of another pass does not stay as it is written
(`not_enrich_displays`).
-/

namespace RuleText.Enricher

open Directive

/-- The pass that finds a directive. -/
def passOf (o : Occurrence) : Pass :=
  match o.form with
  | .inline => .inline
  | .block => if o.name = "Damage".toList then .damage else .block

theorem passOf_of_inline {o : Occurrence} (inline : o.form = .inline) : passOf o = .inline := by
  rw [passOf, inline]

theorem passOf_of_damage {o : Occurrence} (block : o.form = .block)
    (damage : o.name = "Damage".toList) : passOf o = .damage := by
  simp only [passOf, block, if_pos damage]

theorem passOf_of_block {o : Occurrence} (block : o.form = .block)
    (other : o.name ≠ "Damage".toList) : passOf o = .block := by
  simp only [passOf, block, if_neg other]

theorem form_passOf (o : Occurrence) : (passOf o).form = o.form := by
  cases form : o.form with
  | inline =>
    rw [passOf_of_inline form]
    rfl
  | block =>
    by_cases damage : o.name = "Damage".toList
    · rw [passOf_of_damage form damage]
      rfl
    · rw [passOf_of_block form damage]
      rfl

/-- A payload on one line, without brackets and without the beginning of a block. It need
not make sense. -/
structure SimplePayload (payload : Text) : Prop where
  ne_nil : payload ≠ []
  simple : ∀ c ∈ payload, c ∉ ['@', '[', ']', '\n']

instance (payload : Text) : Decidable (SimplePayload payload) :=
  have : Decidable (∀ c ∈ payload, c ∉ ['@', '[', ']', '\n']) := List.decidableBAll _ payload
  decidable_of_iff (payload ≠ [] ∧ ∀ c ∈ payload, c ∉ ['@', '[', ']', '\n'])
    ⟨fun h => ⟨h.1, h.2⟩, fun h => ⟨h.ne_nil, h.simple⟩⟩

theorem SimplePayload.not_mem {payload : Text} (h : SimplePayload payload) {c : Char}
    (hc : c ∈ ['@', '[', ']', '\n']) : c ∉ payload :=
  fun mem => h.simple c mem hc

/-- A directive with the display text `d`, on one line. Its name may be unknown. -/
structure Displays (o : Occurrence) (d : Text) : Prop where
  name_ne_nil : o.name ≠ []
  name_word : ∀ c ∈ o.name, Text.isWord c = true
  payload : SimplePayload o.payload
  display_eq : o.display = some d
  isDisplay : IsDisplay d
  display_line : '\n' ∉ d

/-- No pass but that of the directive finds anything in its display text. -/
def Untouched (o : Occurrence) (d : Text) : Prop :=
  ∀ pass, pass ≠ passOf o → found pass d = []

theorem getLast?_of_spells {pass : Pass} {name payload written : Text}
    (spelled : Spells pass name payload written) : written.getLast? = some ']' := by
  cases spelled with
  | damage _ => exact List.getLast?_concat
  | block _ _ _ _ => exact List.getLast?_concat
  | inline _ _ _ _ => exact List.getLast?_append

/-- A directive ends with a bracket, so the brace behind a display text makes none. -/
theorem found_append_brace {pass : Pass} {d : Text} (h : found pass d = []) :
    found pass (d ++ ['\x7d']) = [] := by
  rw [found_eq_nil_iff] at h ⊢
  intro name payload before written following spelled split
  obtain rfl | ⟨following, c, rfl⟩ := List.eq_nil_or_concat following
  · have last := congrArg List.getLast? split
    simp [getLast?_of_spells spelled] at last
  · rw [List.concat_eq_append, ← List.append_assoc, ← List.append_assoc] at split
    have inside := List.append_inj_left' split rfl
    rw [List.append_assoc] at inside
    exact h name payload before written following spelled inside

variable {o : Occurrence} {d : Text} {resolve : Occurrence → Resolve Text}

theorem passOver_of_found_eq_nil (pass : Pass) {t : Text} (h : found pass t = []) :
    passOver pass.recognize resolve t = pure t :=
  replaceAll_of_found_eq_nil h resolve

/-- A pass that finds nothing before the display text and nothing in it. -/
theorem passOver_before_display (pass : Pass) {t lead d : Text}
    (split : t = lead ++ (d ++ ['\x7d'])) (silent : Silent pass.recognize lead)
    (h : found pass d = []) : passOver pass.recognize resolve t = pure t := by
  rw [split, passOver_silent silent, passOver_of_found_eq_nil pass (found_append_brace h), map_pure]

namespace Displays

theorem not_mem_name (h : Displays o d) {c : Char} (hc : Text.isWord c = false) : c ∉ o.name :=
  not_mem_of_word h.name_word hc

theorem not_newline_mem_text (h : Displays o d) : '\n' ∉ o.text := by
  have name := h.not_mem_name (c := '\n') (by decide)
  have payload := h.payload.not_mem (c := '\n') (by decide)
  cases form : o.form <;>
    simp [Occurrence.text, form, displayText, h.display_eq, name, payload, h.display_line]

theorem text_of_block (h : Displays o d) (block : o.form = .block) :
    o.text = ('@' :: ((o.name ++ ['[']) ++ (o.payload ++ [']'])) ++ ['\x7b']) ++
      (d ++ ['\x7d']) := by
  simp [Occurrence.text, block, h.display_eq, displayText]

theorem text_of_inline (h : Displays o d) (inline : o.form = .inline) :
    o.text = ("[[/".toList ++ o.name ++ [' '] ++ o.payload ++ "]]\x7b".toList) ++
      (d ++ ['\x7d']) := by
  simp [Occurrence.text, inline, h.display_eq, displayText]

theorem exists_spells (h : Displays o d) :
    ∃ written, Spells (passOf o) o.name o.payload written := by
  have opening := h.payload.not_mem (c := '[') (by decide)
  have closing := h.payload.not_mem (c := ']') (by decide)
  cases form : o.form with
  | inline =>
    rw [passOf_of_inline form]
    exact ⟨_, .inline h.name_ne_nil h.name_word h.payload.ne_nil closing⟩
  | block =>
    by_cases damage : o.name = "Damage".toList
    · rw [passOf_of_damage form damage, damage]
      exact ⟨_, .damage (Text.balanced_of_not_mem opening closing)⟩
    · rw [passOf_of_block form damage]
      exact ⟨_, .block h.name_ne_nil h.name_word h.payload.ne_nil closing⟩

/-- The pass of the directive recognizes it as a whole. -/
theorem recognizes (h : Displays o d) : Recognizes (passOf o).recognize o := by
  obtain ⟨written, spelled⟩ := h.exists_spells
  have recognized := spelled.recognizes o.display fun d' shown => by
    obtain rfl : d = d' := Option.some.inj (h.display_eq.symm.trans shown)
    exact h.isDisplay
  rwa [form_passOf] at recognized

/-- The pass of the directive puts the display text in its place. -/
theorem passOver_own (h : Displays o d) (resolves : resolve o = pure d) :
    passOver (passOf o).recognize resolve o.text = pure d := by
  rw [passOver_directive h.recognizes, resolves]

/-- The passes for blocks leave an inline directive alone. -/
theorem passOver_of_inline (h : Displays o d) (inline : o.form = .inline) (pass : Pass)
    (opens : OpensBlock pass.recognize) (untouched : found pass d = []) :
    passOver pass.recognize resolve o.text = pure o.text := by
  have name := h.not_mem_name (c := '@') (Text.isWord_of_delimiter (by decide))
  have payload := h.payload.not_mem (c := '@') (by decide)
  have lead : '@' ∉ "[[/".toList ++ o.name ++ [' '] ++ o.payload ++ "]]\x7b".toList := by
    simp [name, payload]
  exact passOver_before_display pass (h.text_of_inline inline) (opens.startsWith.silent lead)
    untouched

/-- The pass for damage blocks leaves the other blocks alone. -/
theorem passOver_of_block (h : Displays o d) (block : o.form = .block)
    (other : o.name ≠ "Damage".toList) (untouched : found .damage d = []) :
    passOver Pass.damage.recognize resolve o.text = pure o.text := by
  have directive := silent_damageBlock?_of_name_ne h.name_ne_nil h.name_word other
    (h.payload.not_mem (c := '[') (by decide))
  have brace : Silent damageBlock? ['\x7b'] := opensBlock_damageBlock?.startsWith.silent (by decide)
  exact passOver_before_display .damage (h.text_of_block block) (directive.append brace) untouched

end Displays

/-! ### The three passes over a directive with a display text -/

section Passes

variable (data : RollData) (localize : Text → Resolve Text)

theorem resolveBlock_of_displays (h : Displays o d) : resolveBlock data localize o = pure d := by
  simp only [resolveBlock, h.display_eq]

theorem resolveInline_of_displays (h : Displays o d) : resolveInline data o = pure d := by
  simp only [resolveInline, h.display_eq]

/-- The display text of a damage block is read by both later passes. -/
theorem enrichWith_of_damage (h : Displays o d) (block : o.form = .block)
    (damage : o.name = "Damage".toList) : enrichWith .default data localize o.text =
      passOver block? (resolveBlock data localize) d >>= passOver inline? (resolveInline data) := by
  have written := h.passOver_own (resolveBlock_of_displays data localize h)
  rw [passOf_of_damage block damage] at written
  change passOver damageBlock? _ _ = _ at written
  rw [enrichWith_of_not_newline _ _ h.not_newline_mem_text, written, pure_bind]

/-- The display text of another block is read by the first pass in its braces, and by the
last one. -/
theorem enrichWith_of_block (h : Displays o d) (block : o.form = .block)
    (other : o.name ≠ "Damage".toList) (untouched : found .damage d = []) :
    enrichWith .default data localize o.text = passOver inline? (resolveInline data) d := by
  have first : passOver damageBlock? (resolveBlock data localize) o.text = pure o.text :=
    h.passOver_of_block block other untouched
  have written := h.passOver_own (resolveBlock_of_displays data localize h)
  rw [passOf_of_block block other] at written
  change passOver block? _ _ = _ at written
  rw [enrichWith_of_not_newline _ _ h.not_newline_mem_text, first, pure_bind, written, pure_bind]

/-- The display text of an inline directive is read by the first two passes in its
braces. -/
theorem enrichWith_of_inline (h : Displays o d) (inline : o.form = .inline)
    (damage : found .damage d = []) (block : found .block d = []) :
    enrichWith .default data localize o.text = pure d := by
  have first : passOver damageBlock? (resolveBlock data localize) o.text = pure o.text :=
    h.passOver_of_inline inline .damage opensBlock_damageBlock? damage
  have second : passOver block? (resolveBlock data localize) o.text = pure o.text :=
    h.passOver_of_inline inline .block opensBlock_block? block
  have written := h.passOver_own (resolveInline_of_displays data h)
  rw [passOf_of_inline inline] at written
  change passOver inline? _ _ = _ at written
  rw [enrichWith_of_not_newline _ _ h.not_newline_mem_text, first, pure_bind, second, pure_bind,
    written]

/-- The passes leave a display text alone in which the other passes find nothing. -/
theorem enrichWith_displays (h : Displays o d) (untouched : Untouched o d) :
    enrichWith .default data localize o.text = pure d := by
  have second : found .block d = [] → passOver block? (resolveBlock data localize) d = pure d :=
    passOver_of_found_eq_nil .block
  have third : found .inline d = [] → passOver inline? (resolveInline data) d = pure d :=
    passOver_of_found_eq_nil .inline
  cases form : o.form with
  | inline =>
    have own := passOf_of_inline form
    exact enrichWith_of_inline data localize h form (untouched _ (by rw [own]; decide))
      (untouched _ (by rw [own]; decide))
  | block =>
    by_cases damage : o.name = "Damage".toList
    · have own := passOf_of_damage form damage
      rw [enrichWith_of_damage data localize h form damage,
        second (untouched _ (by rw [own]; decide)), pure_bind,
        third (untouched _ (by rw [own]; decide))]
    · have own := passOf_of_block form damage
      rw [enrichWith_of_block data localize h form damage (untouched _ (by rw [own]; decide)),
        third (untouched _ (by rw [own]; decide))]

end Passes

/-- A display text in which the other passes find nothing is what the directive becomes,
and no number is used up. -/
theorem enrich_displays (table : Translations) (data : RollData) {o : Occurrence} {d : Text}
    (shown : Displays o d) (untouched : Untouched o d) (id : Nat) :
    enrich ⟨.default, table⟩ data o.text id = (.ok d, id) := by
  rw [enrich, enrichWithin_eq]
  exact congrFun (enrichWith_displays data _ shown untouched) id

/-! ### An inline roll as a display text -/

/-- An inline roll as it is written. -/
def rollText : Text := "[[/r 1d4]]".toList

theorem found_rollText (pass : Pass) (opens : OpensBlock pass.recognize) :
    found pass rollText = [] :=
  found_eq_nil_of_silent (opens.startsWith.silent (by decide))

/-- An unknown inline directive that shows the roll. -/
def rollInRoll : Occurrence := ⟨.inline, "unknown".toList, "1 bogus=1".toList, some rollText⟩

theorem displays_rollInRoll : Displays rollInRoll rollText where
  name_ne_nil := by decide
  name_word := List.all_eq_true.mp (by decide)
  payload := by decide
  display_eq := rfl
  isDisplay := by decide
  display_line := by decide

theorem enrich_rollInRoll :
    Displays rollInRoll rollText ∧ Untouched rollInRoll rollText ∧
      enrich ⟨.default, .empty⟩ .empty rollInRoll.text 7 = (.ok rollText, 7) := by
  have untouched : Untouched rollInRoll rollText := by
    intro pass other
    cases pass with
    | damage => exact found_rollText .damage opensBlock_damageBlock?
    | block => exact found_rollText .block opensBlock_block?
    | inline => exact absurd rfl other
  exact ⟨displays_rollInRoll, untouched,
    enrich_displays .empty .empty displays_rollInRoll untouched 7⟩

/-- A check that shows the roll. -/
def rollInCheck : Occurrence := ⟨.block, "Check".toList, ['x'], some rollText⟩

theorem displays_rollInCheck : Displays rollInCheck rollText where
  name_ne_nil := by decide
  name_word := List.all_eq_true.mp (by decide)
  payload := by decide
  display_eq := rfl
  isDisplay := by decide
  display_line := by decide

/-- The pass for inline directives resolves the roll that the check shows. -/
theorem enrich_rollInCheck (table : Translations) (data : RollData) (id : Nat) :
    enrich ⟨.default, table⟩ data rollInCheck.text id = (.ok "1d4".toList, id) := by
  let roll : Occurrence := ⟨.inline, ['r'], "1d4".toList, none⟩
  have formed : roll.WellFormed :=
    { name_ne_nil := by decide
      name_word := List.all_eq_true.mp (by decide)
      payload_ne_nil := by decide
      payload_line := by decide
      payload_braces := by decide
      payload_brackets := .inl (by decide)
      display_plain := nofun }
  have resolved : passOver inline? (resolveInline data) rollText = resolveInline data roll :=
    passOver_directive (recognizes_inline? formed rfl)
  rw [enrich, enrichWithin_eq]
  change enrichWith .default data _ _ id = _
  rw [enrichWith_of_block data _ displays_rollInCheck rfl (by decide)
    (found_rollText .damage opensBlock_damageBlock?), resolved]
  rfl

/-- A display text does not always stay as it is written. -/
theorem not_enrich_displays :
    ¬ ∀ (table : Translations) (data : RollData) (o : Occurrence) (d : Text) (id : Nat),
      Displays o d → enrich ⟨.default, table⟩ data o.text id = (.ok d, id) := by
  intro wins
  have stays := wins .empty .empty rollInCheck rollText 1 displays_rollInCheck
  rw [enrich_rollInCheck, Prod.mk.injEq, Except.ok.injEq] at stays
  exact absurd stays.1 (by decide)

end RuleText.Enricher
