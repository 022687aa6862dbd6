import RuleText.Proofs.RollData.Reading
import RuleText.Proofs.Text.Cut

/-!
# Reading paths by byte offsets

A path can also be read in a loop that looks for brackets by their byte offsets and cuts the
text there. Each cut has to lie in the text and between two characters. The loop is entered
only where nothing or a bracket is left, so all its cuts do, and it reads the same steps
(`readByOffsets_eq`).
-/

namespace RuleText.Path

/-- Why reading stops. -/
inductive Stop where
  /-- A cut outside the text or inside a character. -/
  | badCut
  | malformed
deriving DecidableEq

/-- A result that is missing for the given reason. -/
def orStop {α : Type} (stop : Stop) : Option α → Except Stop α
  | some a => .ok a
  | none => .error stop

/-- The loop over the indexes: the next closing bracket ends an index, and only nothing or an
opening bracket may be behind it. -/
def indexesByOffsets (rest : Text) : Except Stop (List Step) :=
  if rest = [] then .ok []
  else do
    let close ← orStop .malformed (Text.offset? ']' rest)
    let digits ← orStop .badCut (Text.between? 1 close rest)
    let position ← orStop .malformed (index? digits)
    match _ : Text.cutAt? (close + 1) rest with
    | none => .error .badCut
    | some (_, behind) =>
      if behind ≠ [] ∧ behind.head? ≠ some '[' then .error .malformed
      else do
        let more ← indexesByOffsets behind
        return .index position :: more
termination_by rest.length
decreasing_by exact Text.length_lt_of_cutAt? ‹_›

/-- A part is cut at its first opening bracket, or at its end. -/
def partByOffsets (part : Text) : Except Stop (List Step) := do
  let (key, rest) ←
    orStop .badCut (Text.cutAt? ((Text.offset? '[' part).getD part.utf8Size) part)
  if key = [] ∧ rest = [] then .error .malformed
  else do
    let steps ← indexesByOffsets rest
    return if key = [] then steps else .key key :: steps

/-- The steps of a path. -/
def readByOffsets (path : Text) : Except Stop (List Step) := do
  let parts ← (path.splitOn '.').mapM partByOffsets
  return parts.flatten

variable {digits rest : Text}

theorem indexesByOffsets_bracket (inside : ']' ∉ digits) :
    indexesByOffsets ('[' :: (digits ++ ']' :: rest)) = do
      let position ← orStop .malformed (index? digits)
      if rest ≠ [] ∧ rest.head? ≠ some '[' then .error .malformed
      else do
        let more ← indexesByOffsets rest
        return .index position :: more := by
  rw [← List.cons_append]
  obtain ⟨front, opened⟩ : ∃ front, front = '[' :: digits := ⟨_, rfl⟩
  have outside : ']' ∉ front := by simp [opened, inside]
  have close : Text.offset? ']' (front ++ ']' :: rest) = some (Text.utf8Size front) :=
    Text.offset?_append outside
  have digits_cut : Text.between? 1 (Text.utf8Size front) (front ++ ']' :: rest) = some digits := by
    have first : Text.cutAt? 1 front = some (['['], digits) :=
      opened ▸ Text.cutAt?_append ['['] digits
    rw [Text.between?, Text.cutAt?_append]
    exact congrArg (Option.map Prod.snd) first
  have behind_cut : Text.cutAt? (Text.utf8Size front + 1) (front ++ ']' :: rest) =
      some (front ++ [']'], rest) := by
    have whole := Text.cutAt?_append (front ++ [']']) rest
    rwa [Text.utf8Size_append, List.append_assoc] at whole
  have nonempty : front ++ ']' :: rest ≠ [] := by simp
  rw [← opened, indexesByOffsets, if_neg nonempty, close]
  show (orStop .badCut (Text.between? 1 (Text.utf8Size front) (front ++ ']' :: rest)) >>= _) = _
  rw [digits_cut]
  show (orStop .malformed (index? digits) >>= _) = _
  congr 1
  funext position
  split
  · next none =>
    rw [behind_cut] at none
    cases none
  · next found =>
    rw [behind_cut] at found
    cases found
    rfl

/-- The loop reads the indexes. It is entered at its end or at a bracket. -/
theorem indexesByOffsets_eq (ends : Bracketed rest) :
    indexesByOffsets rest = orStop .malformed (indexes? rest) := by
  induction hn : rest.length using Nat.strongRecOn generalizing rest with
  | ind n ih =>
    subst hn
    obtain rfl | ⟨t, rfl⟩ := ends
    · rw [indexesByOffsets, if_pos rfl, indexes?_nil]
      rfl
    cases found : Text.splitOnce ']' t with
    | none =>
      have unclosed := Text.splitOnce_eq_none.mp found
      have missing : Text.offset? ']' ('[' :: t) = none :=
        Text.offset?_eq_none (by simp [unclosed])
      rw [indexesByOffsets, if_neg (List.cons_ne_nil _ _), missing, indexes?_unclosed unclosed]
      rfl
    | some cut =>
      obtain ⟨digits, behind⟩ := cut
      obtain ⟨rfl, inside⟩ := Text.eq_of_splitOnce found
      rw [indexesByOffsets_bracket inside, indexes?_bracket inside]
      cases index? digits with
      | none => rfl
      | some position =>
        show (if behind ≠ [] ∧ behind.head? ≠ some '[' then _ else _) = _
        by_cases bad : behind ≠ [] ∧ behind.head? ≠ some '['
        · rw [if_pos bad]
          cases read : indexes? behind with
          | none => rfl
          | some more =>
            obtain ⟨rfl, -⟩ | ⟨_, _, _, _, rfl, -⟩ := of_indexes? read
            · exact absurd rfl bad.1
            · exact absurd rfl bad.2
        · have ends : Bracketed behind := by
            rw [not_and_or, not_not, not_not, List.head?_eq_some_iff] at bad
            exact bad
          have shorter : behind.length < ('[' :: (digits ++ ']' :: behind)).length := by
            simp only [List.length_cons, List.length_append]
            omega
          rw [if_neg bad, ih _ shorter ends rfl]
          cases indexes? behind <;> rfl

theorem partByOffsets_eq (part : Text) :
    partByOffsets part = orStop .malformed (part? part) := by
  obtain ⟨key, rest, rfl, outside, ends⟩ := exists_part part
  have place : (Text.offset? '[' (key ++ rest)).getD (key ++ rest).utf8Size = key.utf8Size := by
    obtain rfl | ⟨t, rfl⟩ := ends
    · rw [List.append_nil, Text.offset?_eq_none outside, Option.getD_none]
    · rw [Text.offset?_append outside, Option.getD_some]
  rw [partByOffsets, place, Text.cutAt?_append, part?_append outside ends]
  show (if key = [] ∧ rest = [] then _ else _) = _
  by_cases empty : key = [] ∧ rest = []
  · rw [if_pos empty, if_pos empty]
    rfl
  · rw [if_neg empty, if_neg empty, indexesByOffsets_eq ends]
    cases indexes? rest <;> rfl

theorem mapM_orStop {α β : Type} {stop : Stop} {f : α → Option β} {g : α → Except Stop β}
    (same : ∀ a, g a = orStop stop (f a)) (as : List α) :
    as.mapM g = orStop stop (as.mapM f) := by
  induction as with
  | nil => rfl
  | cons a as ih =>
    rw [List.mapM_cons, List.mapM_cons, same, ih]
    cases f a with
    | none => rfl
    | some b => cases as.mapM f <;> rfl

/-- No cut goes wrong, and the steps are the same. -/
theorem readByOffsets_eq (path : Text) :
    readByOffsets path = orStop .malformed (steps? path) := by
  rw [readByOffsets, mapM_orStop partByOffsets_eq, steps?]
  cases (path.splitOn '.').mapM part? <;> rfl

end RuleText.Path
