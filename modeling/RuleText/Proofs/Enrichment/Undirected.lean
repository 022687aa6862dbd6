import RuleText.Proofs.Directive.Scanning
import RuleText.Proofs.Enrichment.Locality

/-!
# Text without directives

If no block and no inline directive begins anywhere in a text, enriching it writes the markup
and nothing else, whatever the data and the translations are. The markup brings no beginning of
a directive about: each piece of it starts with an angle bracket and has neither an at sign nor
an opening bracket. It has no line break and hence no rule marker either, so the result is not
changed when it is enriched again.
-/

namespace RuleText.Enricher

open Directive

/-- No directive begins in the text: there is no at sign in front of a name and a bracket, and
no pair of brackets in front of a slash. -/
structure Undirected (t : Text) : Prop where
  block : ∀ name : Text, name ≠ [] → (∀ c ∈ name, Text.isWord c = true) →
    ¬ '@' :: (name ++ ['[']) <:+: t
  inline : ¬ "[[/".toList <:+: t

variable {parts : List Text} {t : Text}

/-- A pass finds nothing. -/
theorem Undirected.found_eq_nil (h : Undirected t) (pass : Pass) : found pass t = [] := by
  refine found_eq_nil_iff.mpr ?_
  rintro name payload before written following spelled rfl
  cases spelled with
  | damage balanced =>
    have word : ∀ c ∈ "Damage".toList, Text.isWord c = true := List.all_eq_true.mp (by decide)
    refine h.block "Damage".toList (by decide) word ⟨before, payload ++ [']'] ++ following, ?_⟩
    simp
  | block some_name word =>
    refine h.block name some_name word ⟨before, payload ++ [']'] ++ following, ?_⟩
    simp
  | inline =>
    refine h.inline ⟨before, name ++ [' '] ++ payload ++ "]]".toList ++ following, ?_⟩
    simp

/-- Only the markup is written. -/
theorem enrich_eq (h : Undirected (markup .default t)) (table : Translations) (data : RollData) :
    enrich ⟨.default, table⟩ data t = pure (markup .default t) := by
  rw [enrich, enrichWithin_eq]
  have damage := replaceAll_of_found_eq_nil (h.found_eq_nil .damage) (m := Resolve)
  have block := replaceAll_of_found_eq_nil (h.found_eq_nil .block) (m := Resolve)
  have inline := replaceAll_of_found_eq_nil (h.found_eq_nil .inline) (m := Resolve)
  simp only [Pass.recognize] at damage block inline
  simp only [enrichWith, damage, block, inline, pure_bind]

/-- The parts between rule markers, each with its newlines replaced. -/
def withMarkup (parts : List Text) : Text :=
  Text.joined "<div class=\"details\">".toList
      (parts.map (Text.replaceChar '\n' "</br>".toList)) ++
    if 1 < parts.length then "</div>".toList else []

/-- The text is cut at the rule markers, and what lies between is joined with what opens the
details. If there are markers, the details are closed. -/
theorem exists_markup (config : Config) (some_marker : config.ruleMarker ≠ []) (t : Text) :
    ∃ parts, t.CutAt config.ruleMarker parts ∧
      markup config t = Text.replaceChar '\n' config.lineBreak
        (Text.joined config.detailsOpen parts ++
          if 1 < parts.length then config.detailsClose else []) := by
  obtain ⟨parts, cut, replaced⟩ := Text.exists_cutAt some_marker config.detailsOpen t
  refine ⟨parts, cut, ?_⟩
  by_cases several : 1 < parts.length
  · have inside : Text.occursIn config.ruleMarker t = true := by
      rw [Text.occursIn_iff, cut.eq_joined]
      exact Text.separator_infix_joined several
    rw [markup, if_pos ⟨some_marker, inside⟩, if_pos several, replaced]
  · obtain ⟨part, rfl⟩ : ∃ part, parts = [part] := by
      have := List.length_pos_of_ne_nil cut.ne_nil
      exact List.length_eq_one_iff.mp (by omega)
    have whole : t = part := cut.eq_joined.trans (Text.joined_singleton part)
    have outside : ¬ Text.occursIn config.ruleMarker t = true := by
      rw [Text.occursIn_iff, whole]
      exact cut.free part (List.mem_singleton_self _)
    rw [markup, if_neg (fun marked => outside marked.2), if_neg several, List.append_nil,
      Text.joined_singleton, whole]

theorem exists_withMarkup (t : Text) :
    ∃ parts, t.CutAt "<hr />\n".toList parts ∧ markup .default t = withMarkup parts := by
  obtain ⟨parts, cut, written⟩ := exists_markup .default (by decide) t
  refine ⟨parts, cut, ?_⟩
  have opening : Text.replaceChar '\n' Config.default.lineBreak Config.default.detailsOpen =
      "<div class=\"details\">".toList := by decide
  have closing : Text.replaceChar '\n' Config.default.lineBreak
      (if 1 < parts.length then Config.default.detailsClose else []) =
        if 1 < parts.length then "</div>".toList else [] := by
    split
    · decide
    · rfl
  rw [written, Text.replaceChar_append, Text.replaceChar_joined, opening, closing]
  rfl

/-- A word that does not fit into the markup stands on a line of the text itself. -/
theorem exists_line_of_infix {a : Char} {w : Text} (cut : t.CutAt "<hr />\n".toList parts)
    (outside : '<' ∉ a :: w)
    (start : ∀ piece ∈ ["<div class=\"details\">".toList, "</div>".toList, "</br>".toList],
      a ∉ piece)
    (h : a :: w <:+: withMarkup parts) : ∃ line, a :: w <:+: line ∧ '\n' ∉ line ∧ line <:+: t := by
  simp only [List.forall_mem_cons] at start
  obtain ⟨opening, closing, breaking, -⟩ := start
  have joined : a :: w <:+: Text.joined "<div class=\"details\">".toList
      (parts.map (Text.replaceChar '\n' "</br>".toList)) := by
    rw [withMarkup] at h
    split at h
    · rw [← List.append_nil (_ ++ _)] at h
      obtain front | behind := Text.infix_or_infix_of_between rfl outside closing h
      · exact front
      · simp at behind
    · rwa [List.append_nil] at h
  obtain ⟨_, mapped, inside⟩ := Text.infix_of_infix_joined rfl outside opening joined
  obtain ⟨part, of_text, rfl⟩ := List.mem_map.mp mapped
  obtain ⟨lines, cutLines, broken⟩ :=
    Text.exists_cutAt (List.cons_ne_nil '\n' []) "</br>".toList part
  rw [Text.replaceChar_eq_replaceAll, broken] at inside
  obtain ⟨line, of_part, within⟩ := Text.infix_of_infix_joined rfl outside breaking inside
  refine ⟨line, within, fun newline => ?_, ?_⟩
  · exact cutLines.free line of_part ((List.singleton_infix_iff _ _).mpr newline)
  · have line_part : line <:+: part := cutLines.eq_joined ▸ Text.infix_joined of_part
    have part_text : part <:+: t := cut.eq_joined ▸ Text.infix_joined of_text
    exact line_part.trans part_text

/-- The markup brings no directive about. -/
theorem undirected_withMarkup (h : Undirected t) (cut : t.CutAt "<hr />\n".toList parts) :
    Undirected (withMarkup parts) where
  block name some_name word inside := by
    have outside : '<' ∉ '@' :: (name ++ ['[']) := by
      have other : '<' ∉ name := fun mem => absurd (word '<' mem) (by decide)
      simp [other]
    obtain ⟨line, within, -, part⟩ := exists_line_of_infix cut outside (by decide) inside
    exact h.block name some_name word (within.trans part)
  inline inside := by
    obtain ⟨line, within, -, part⟩ := exists_line_of_infix cut (by decide) (by decide) inside
    exact h.inline (within.trans part)

/-- No line break is left. -/
theorem newline_not_mem_withMarkup (cut : t.CutAt "<hr />\n".toList parts) :
    '\n' ∉ withMarkup parts := by
  intro mem
  have inside : ['\n'] <:+: withMarkup parts := (List.singleton_infix_iff _ _).mpr mem
  obtain ⟨line, within, free, -⟩ := exists_line_of_infix cut (by decide) (by decide) inside
  exact free ((List.singleton_infix_iff _ _).mp within)

/-- A text without directives is enriched, without a span, by replacing its rule markers and
its other newlines, and what comes out is not changed when it is enriched again. -/
theorem enrich_of_undirected (h : Undirected t) (table : Translations) :
    ∃ parts, t.CutAt "<hr />\n".toList parts ∧
      ∀ data id, enrich ⟨.default, table⟩ data t id = (.ok (withMarkup parts), id) ∧
        enrich ⟨.default, table⟩ data (withMarkup parts) id = (.ok (withMarkup parts), id) := by
  obtain ⟨parts, cut, written⟩ := exists_withMarkup t
  have line := newline_not_mem_withMarkup cut
  have again : markup .default (withMarkup parts) = withMarkup parts :=
    markup_of_unmarked line (unmarked_default line)
  have undirected := undirected_withMarkup h cut
  refine ⟨parts, cut, fun data id => ⟨?_, ?_⟩⟩
  · rw [enrich_eq (written ▸ undirected), written]
    rfl
  · rw [enrich_eq (again.symm ▸ undirected), again]
    rfl

/-- An at sign and rule markers, but no directive. -/
def ruled : Text := "a@b\n<hr />\nc<hr />\n".toList

theorem enrich_ruled : Undirected ruled ∧
    ∃ parts, ruled.CutAt "<hr />\n".toList parts ∧
      ∀ data id, enrich .plain data ruled id = (.ok (withMarkup parts), id) ∧
        enrich .plain data (withMarkup parts) id = (.ok (withMarkup parts), id) := by
  have bracket : '[' ∉ ruled := by decide
  have undirected : Undirected ruled := {
    block := fun name _ _ inside => bracket (inside.subset (by simp))
    inline := fun inside => bracket (inside.subset (by decide)) }
  exact ⟨undirected, enrich_of_undirected undirected .empty⟩

end RuleText.Enricher
