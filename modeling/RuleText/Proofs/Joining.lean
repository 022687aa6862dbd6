import Mathlib.Data.List.Forall2
import Mathlib.Data.List.Nodup
import RuleText.Proofs.Outcome

/-!
# Lists joined by keys

An entry enters a list by being joined to the first entry that has its key, or at the
end if there is none. What joins two entries is left open, also whether two entries can
be joined at all.

Two facts about lists whose entries enter another list one after the other do not depend
on it. If no key stands twice in either list, each entry meets the one entry of the other
list that has its key, and the entries with new keys stand behind (`JoinedByKey`). And
lists may be joined in either order of brackets (`Associates.enterAll_assoc`), if entries
may and the list in the middle holds no key twice.
-/

namespace RuleText

variable {α κ : Type}

/-- `zs` is `xs` with `y` joined to the first entry that has its key, or at the end. -/
inductive Enters (key : α → κ) (Joined : α → α → α → Prop) (y : α) : List α → List α → Prop
  | atEnd : Enters key Joined y [] [y]
  | joined {x z : α} {xs : List α} : key x = key y → Joined x y z →
      Enters key Joined y (x :: xs) (z :: xs)
  | later {x : α} {xs zs : List α} : key x ≠ key y → Enters key Joined y xs zs →
      Enters key Joined y (x :: xs) (x :: zs)

/-- `zs` is `xs` after all entries of the second list have entered it, in their order. -/
inductive EnterAll (key : α → κ) (Joined : α → α → α → Prop) : List α → List α → List α → Prop
  | nil (xs : List α) : EnterAll key Joined xs [] xs
  | cons {y : α} {xs xs' ys zs : List α} : Enters key Joined y xs xs' →
      EnterAll key Joined xs' ys zs → EnterAll key Joined xs (y :: ys) zs

variable {key : α → κ} {Joined : α → α → α → Prop} {xs xs' ys zs : List α} {y : α}

/-- A fold is joining, if each of its steps is. -/
theorem foldlM_eq_ok_iff_enterAll {ε : Type} {f : List α → α → Except ε (List α)}
    (step : ∀ xs y zs, f xs y = .ok zs ↔ Enters key Joined y xs zs) :
    ys.foldlM f xs = .ok zs ↔ EnterAll key Joined xs ys zs := by
  induction ys generalizing xs with
  | nil =>
    rw [foldlM_nil_eq_ok]
    constructor
    · rintro rfl
      exact .nil xs
    · rintro ⟨⟩
      rfl
  | cons y ys ih =>
    rw [foldlM_cons_eq_ok]
    constructor
    · rintro ⟨xs', first, rest⟩
      exact .cons ((step xs y xs').mp first) (ih.mp rest)
    · rintro (_ | ⟨enters, rest⟩)
      exact ⟨_, (step xs y _).mpr enters, ih.mpr rest⟩

/-! ### One entry -/

/-- An entry enters if it can be joined to those with its key. -/
theorem exists_enters (h : ∀ x ∈ xs, key x = key y → ∃ z, Joined x y z) :
    ∃ zs, Enters key Joined y xs zs := by
  induction xs with
  | nil => exact ⟨[y], .atEnd⟩
  | cons x xs ih =>
    obtain ⟨first, more⟩ := List.forall_mem_cons.mp h
    by_cases same : key x = key y
    · obtain ⟨z, joined⟩ := first same
      exact ⟨z :: xs, .joined same joined⟩
    · obtain ⟨zs, enters⟩ := ih more
      exact ⟨x :: zs, .later same enters⟩

/-- The entry is joined to one with its key, or it stands at the end and its key is new. -/
theorem Enters.split (h : Enters key Joined y xs zs) :
    (∃ before x z after, xs = before ++ x :: after ∧ zs = before ++ z :: after ∧
      key x = key y ∧ Joined x y z) ∨
    zs = xs ++ [y] ∧ ∀ x ∈ xs, key x ≠ key y := by
  induction h with
  | atEnd => exact .inr ⟨rfl, fun x hx => nomatch hx⟩
  | @joined x z xs same joined => exact .inl ⟨[], x, z, xs, rfl, rfl, same, joined⟩
  | @later x xs zs other _ ih =>
    obtain ⟨before, w, z, after, rfl, rfl, joined⟩ | ⟨rfl, new⟩ := ih
    · exact .inl ⟨x :: before, w, z, after, rfl, rfl, joined⟩
    · exact .inr ⟨rfl, List.forall_mem_cons.mpr ⟨other, new⟩⟩

/-- An entry with a new key stands at the end. -/
theorem Enters.eq_of_new (h : Enters key Joined y xs zs) (new : key y ∉ xs.map key) :
    zs = xs ++ [y] ∧ ∀ x ∈ xs, key x ≠ key y := by
  obtain ⟨before, x, z, after, rfl, -, same, -⟩ | concat := h.split
  · simp [same] at new
  · exact concat

/-- What holds of all entries and of each entry that is joined holds of all entries
afterwards. -/
theorem Enters.forall_mem {P : α → Prop} (h : Enters key Joined y xs zs) (hxs : ∀ x ∈ xs, P x)
    (hy : P y) (joins : ∀ x z, P x → key x = key y → Joined x y z → P z) : ∀ z ∈ zs, P z := by
  induction h with
  | atEnd => exact List.forall_mem_singleton.mpr hy
  | joined same joined =>
    obtain ⟨hx, more⟩ := List.forall_mem_cons.mp hxs
    exact List.forall_mem_cons.mpr ⟨joins _ _ hx same joined, more⟩
  | later other enters ih =>
    obtain ⟨hx, more⟩ := List.forall_mem_cons.mp hxs
    exact List.forall_mem_cons.mpr ⟨hx, ih more⟩

/-! ### Joined by keys -/

/-- `z` is `x`, joined with the entry of `ys` that has its key if there is one. -/
inductive Meets (key : α → κ) (Joined : α → α → α → Prop) (ys : List α) (x z : α) : Prop
  | joined {y : α} : y ∈ ys → key y = key x → Joined x y z → Meets key Joined ys x z
  | alone : (∀ y ∈ ys, key y ≠ key x) → z = x → Meets key Joined ys x z

/-- The third list has the entries of the first in their order, each joined with the entry
of the second that has its key, and behind them the entries of the second list with keys
that are not in the first, in their order. -/
def JoinedByKey [DecidableEq κ] (key : α → κ) (Joined : α → α → α → Prop)
    (xs ys zs : List α) : Prop :=
  ∃ met, List.Forall₂ (Meets key Joined ys) xs met ∧
    zs = met ++ ys.filter fun y => key y ∉ xs.map key

theorem exists_of_forall₂ {β : Type} {R : α → β → Prop} {ys : List β} (h : List.Forall₂ R xs ys)
    {y : β} (hy : y ∈ ys) : ∃ x ∈ xs, R x y := by
  induction h with
  | nil => cases hy
  | @cons x y' xs ys related _ ih =>
    obtain rfl | hy := List.mem_cons.mp hy
    · exact ⟨x, List.mem_cons_self, related⟩
    · obtain ⟨x', hx', related'⟩ := ih hy
      exact ⟨x', List.mem_cons_of_mem x hx', related'⟩

theorem forall₂_trans {R S T : α → α → Prop} (h : ∀ x y z, R x y → S y z → T x z)
    (left : List.Forall₂ R xs ys) (right : List.Forall₂ S ys zs) : List.Forall₂ T xs zs := by
  induction left generalizing zs with
  | nil =>
    cases right
    exact .nil
  | cons first _ ih =>
    obtain _ | ⟨second, right⟩ := right
    exact .cons (h _ _ _ first second) (ih right)

theorem exists_of_forall₂_append {R : α → α → Prop} (h : List.Forall₂ R (xs ++ ys) zs) :
    ∃ us vs, List.Forall₂ R xs us ∧ List.Forall₂ R ys vs ∧ zs = us ++ vs := by
  induction xs generalizing zs with
  | nil => exact ⟨[], zs, .nil, h, rfl⟩
  | cons x xs ih =>
    obtain _ | ⟨first, rest⟩ := h
    obtain ⟨us, vs, left, right, rfl⟩ := ih rest
    exact ⟨_ :: us, vs, .cons first left, right, rfl⟩

/-- An entry whose key is in the list meets the entry with that key and no other one. -/
theorem Enters.meets (h : Enters key Joined y xs zs) (hxs : (xs.map key).Nodup)
    (old : key y ∈ xs.map key) : List.Forall₂ (Meets key Joined [y]) xs zs := by
  induction h with
  | atEnd => cases old
  | @joined x z xs same joined =>
    obtain ⟨new, -⟩ := List.nodup_cons.mp hxs
    refine .cons (.joined List.mem_cons_self same.symm joined) ?_
    refine List.forall₂_same.mpr fun w hw => .alone (List.forall_mem_singleton.mpr ?_) rfl
    intro again
    rw [same, again] at new
    exact new (List.mem_map_of_mem hw)
  | later other _ ih =>
    obtain ⟨-, hxs⟩ := List.nodup_cons.mp hxs
    refine .cons (.alone (List.forall_mem_singleton.mpr other.symm) rfl) (ih hxs ?_)
    exact (List.mem_cons.mp old).resolve_left other.symm

theorem meets_of_new (absent : ∀ x ∈ xs, key x ≠ key y) :
    List.Forall₂ (Meets key Joined [y]) xs xs := by
  refine List.forall₂_same.mpr fun x hx => .alone (List.forall_mem_singleton.mpr ?_) rfl
  exact (absent x hx).symm

/-- Of entries with other keys, those are new beside `y` that were new before. -/
theorem filter_new_cons [DecidableEq κ] (absent : ∀ x ∈ xs, key x ≠ key y)
    (apart : ∀ w ∈ ys, key w ≠ key y) :
    (y :: ys).filter (fun w => key w ∉ xs.map key) =
      y :: ys.filter fun w => key w ∉ (xs ++ [y]).map key := by
  have same : ∀ w ∈ ys, decide (key w ∉ xs.map key) =
      decide (key w ∉ (xs ++ [y]).map key) := by
    intro w hw
    simp [apart w hw]
  rw [List.filter_cons_of_pos (by simpa using absent), List.filter_congr same]

section Keys

variable (keeps : ∀ ⦃x y z : α⦄, Joined x y z → key z = key x)
include keeps

/-- The keys stay in their order, and a new one is put behind them. -/
theorem Enters.keys (h : Enters key Joined y xs zs) :
    zs.map key = xs.map key ∧ key y ∈ xs.map key ∨
      zs.map key = xs.map key ++ [key y] ∧ key y ∉ xs.map key := by
  obtain ⟨before, x, z, after, rfl, rfl, same, joined⟩ | ⟨rfl, new⟩ := h.split
  · simp [keeps joined, same]
  · have absent : key y ∉ xs.map key := by simpa using new
    exact .inr ⟨by simp, absent⟩

theorem Enters.mem_keys (h : Enters key Joined y xs zs) : key y ∈ zs.map key := by
  obtain ⟨same, old⟩ | ⟨more, -⟩ := h.keys keeps
  · rwa [same]
  · simp [more]

theorem Enters.subset_keys (h : Enters key Joined y xs zs) : xs.map key ⊆ zs.map key := by
  obtain ⟨same, -⟩ | ⟨more, -⟩ := h.keys keeps
  · rw [same]
    exact List.Subset.refl _
  · rw [more]
    exact List.subset_append_left _ _

theorem Enters.nodup (h : Enters key Joined y xs zs) (hxs : (xs.map key).Nodup) :
    (zs.map key).Nodup := by
  obtain ⟨same, -⟩ | ⟨more, new⟩ := h.keys keeps
  · rwa [same]
  · rw [more, ← List.concat_eq_append]
    exact hxs.concat new

/-- All entries enter if each can be joined to those with its key. -/
theorem exists_enterAll (hys : (ys.map key).Nodup)
    (h : ∀ x ∈ xs, ∀ y ∈ ys, key x = key y → ∃ z, Joined x y z) :
    ∃ zs, EnterAll key Joined xs ys zs := by
  induction ys generalizing xs with
  | nil => exact ⟨xs, .nil xs⟩
  | cons y ys ih =>
    obtain ⟨new, hys⟩ := List.nodup_cons.mp hys
    have apart : ∀ w ∈ ys, key y ≠ key w := by
      intro w hw same
      exact new (same ▸ List.mem_map_of_mem hw)
    obtain ⟨xs', enters⟩ := exists_enters fun x hx => h x hx y List.mem_cons_self
    -- An entry that has been joined with `y` meets no further one.
    have later : ∀ x ∈ xs', ∀ w ∈ ys, key x = key w → ∃ z, Joined x w z := by
      apply Enters.forall_mem (P := fun x => ∀ w ∈ ys, key x = key w → ∃ z, Joined x w z) enters
      · exact fun x hx w hw => h x hx w (List.mem_cons_of_mem y hw)
      · exact fun w hw same => absurd same (apart w hw)
      · intro x z _ same joined w hw again
        have : key y = key w := by rw [← same, ← keeps joined, again]
        exact absurd this (apart w hw)
    obtain ⟨zs, rest⟩ := ih hys later
    exact ⟨zs, .cons enters rest⟩

/-- Meeting one entry and then others with other keys. -/
theorem Meets.trans {x x' z : α} (apart : ∀ w ∈ ys, key w ≠ key y)
    (first : Meets key Joined [y] x x') (rest : Meets key Joined ys x' z) :
    Meets key Joined (y :: ys) x z := by
  obtain ⟨hw, same, joined⟩ | ⟨other, rfl⟩ := first
  · obtain rfl := List.mem_singleton.mp hw
    obtain ⟨hw, again, _⟩ | ⟨_, rfl⟩ := rest
    · rw [keeps joined, ← same] at again
      exact absurd again (apart _ hw)
    · exact .joined List.mem_cons_self same joined
  · have other := List.forall_mem_singleton.mp other
    obtain ⟨hw, same, joined⟩ | ⟨others, rfl⟩ := rest
    · exact .joined (List.mem_cons_of_mem y hw) same joined
    · exact .alone (List.forall_mem_cons.mpr ⟨other, others⟩) rfl

variable [DecidableEq κ]

/-- If no key stands twice in either list, entering is joining by keys. -/
theorem EnterAll.joinedByKey (h : EnterAll key Joined xs ys zs) (hxs : (xs.map key).Nodup)
    (hys : (ys.map key).Nodup) : JoinedByKey key Joined xs ys zs := by
  induction h with
  | nil xs =>
    refine ⟨xs, List.forall₂_same.mpr fun x _ => .alone (fun y hy => nomatch hy) rfl, ?_⟩
    exact (List.append_nil xs).symm
  | @cons y xs xs' ys zs enters _ ih =>
    obtain ⟨new, hys⟩ := List.nodup_cons.mp hys
    have apart : ∀ w ∈ ys, key w ≠ key y := by
      intro w hw same
      exact new (same ▸ List.mem_map_of_mem hw)
    obtain ⟨met, meets, rfl⟩ := ih (enters.nodup keeps hxs) hys
    have trans : ∀ x x' z, Meets key Joined [y] x x' → Meets key Joined ys x' z →
        Meets key Joined (y :: ys) x z :=
      fun x x' z first rest => first.trans keeps apart rest
    obtain ⟨same, old⟩ | ⟨-, absent⟩ := enters.keys keeps
    · refine ⟨met, forall₂_trans trans (enters.meets hxs old) meets, ?_⟩
      rw [same, List.filter_cons_of_neg (by simpa using old)]
    · obtain ⟨rfl, absent⟩ := enters.eq_of_new absent
      obtain ⟨us, vs, front, last, rfl⟩ := exists_of_forall₂_append meets
      obtain _ | ⟨⟨hw, same, -⟩ | ⟨-, stays⟩, _ | _⟩ := last
      · exact absurd same (apart _ hw)
      · refine ⟨us, forall₂_trans trans (meets_of_new absent) front, ?_⟩
        rw [stays, filter_new_cons absent apart, List.append_assoc]
        rfl

/-- The result holds no key twice either. -/
theorem JoinedByKey.nodup (h : JoinedByKey key Joined xs ys zs) (hxs : (xs.map key).Nodup)
    (hys : (ys.map key).Nodup) : (zs.map key).Nodup := by
  obtain ⟨met, meets, rfl⟩ := h
  have same : met.map key = xs.map key := by
    clear hxs
    induction meets with
    | nil => rfl
    | cons first _ ih =>
      rw [List.map_cons, List.map_cons, ih]
      obtain ⟨-, -, joined⟩ | ⟨-, rfl⟩ := first
      · rw [keeps joined]
      · rfl
  rw [List.map_append, same]
  refine hxs.append (hys.sublist (List.filter_sublist.map key)) ?_
  intro k hk new
  obtain ⟨y, hy, rfl⟩ := List.mem_map.mp new
  have absent : key y ∉ xs.map key := by simpa using (List.mem_filter.mp hy).2
  exact absent hk

end Keys

section JoinedByKey

variable [DecidableEq κ]

theorem find?_key_eq_some_iff {k : κ} {x : α} (hxs : (xs.map key).Nodup) :
    xs.find? (fun x => key x = k) = some x ↔ x ∈ xs ∧ key x = k := by
  constructor
  · intro found
    exact ⟨List.mem_of_find?_eq_some found, by simpa using List.find?_some found⟩
  · rintro ⟨hx, rfl⟩
    cases found : xs.find? (fun w => key w = key x) with
    | none => simpa using List.find?_eq_none.mp found x hx
    | some w =>
      have same : key w = key x := by simpa using List.find?_some found
      rw [List.inj_on_of_nodup_map hxs (List.mem_of_find?_eq_some found) hx same]

/-- Two entries with the same key have been joined. -/
theorem JoinedByKey.exists_joined {x : α} (h : JoinedByKey key Joined xs ys zs)
    (hys : (ys.map key).Nodup) (hx : x ∈ xs) (hy : y ∈ ys) (same : key x = key y) :
    ∃ z ∈ zs, Joined x y z := by
  obtain ⟨met, meets, rfl⟩ := h
  obtain ⟨z, hz, meets⟩ := exists_of_forall₂ meets.flip hx
  obtain ⟨hw, again, joined⟩ | ⟨others, -⟩ := meets
  · obtain rfl := List.inj_on_of_nodup_map hys hw hy (again.trans same)
    exact ⟨z, List.mem_append_left _ hz, joined⟩
  · exact absurd same.symm (others y hy)

theorem JoinedByKey.imp {J : α → α → α → Prop} (h : JoinedByKey key Joined xs ys zs)
    (joins : ∀ x ∈ xs, ∀ y ∈ ys, ∀ z, key x = key y → Joined x y z → J x y z) :
    JoinedByKey key J xs ys zs := by
  obtain ⟨met, meets, rfl⟩ := h
  refine ⟨met, ?_, rfl⟩
  have both := (List.forall₂_and_left xs met).mpr ⟨joins, meets⟩
  refine both.imp fun x z ⟨joins, meets⟩ => ?_
  obtain ⟨hy, same, joined⟩ | ⟨others, stays⟩ := meets
  · exact .joined hy same (joins _ hy z same.symm joined)
  · exact .alone others stays

/-- Whether the first list takes in the second or the second the first, the results have
the same entries, as far as it does not matter which of two entries is joined to the
other. -/
theorem JoinedByKey.exists_swapped {S : α → α → Prop} {zs' : List α} {z : α}
    (h : JoinedByKey key Joined xs ys zs) (h' : JoinedByKey key Joined ys xs zs')
    (hxs : (xs.map key).Nodup) (refl : ∀ z, S z z)
    (swap : ∀ x ∈ xs, ∀ y ∈ ys, ∀ z z', key x = key y → Joined x y z → Joined y x z' → S z z')
    (hz : z ∈ zs) : ∃ z' ∈ zs', S z z' := by
  obtain ⟨met, meets, rfl⟩ := h
  obtain ⟨met', meets', rfl⟩ := h'
  obtain hz | new := List.mem_append.mp hz
  · obtain ⟨x, hx, ⟨hy, same, joined⟩ | ⟨others, rfl⟩⟩ := exists_of_forall₂ meets hz
    · obtain ⟨z', hz', ⟨hw, again, joined'⟩ | ⟨others, -⟩⟩ := exists_of_forall₂ meets'.flip hy
      · obtain rfl := List.inj_on_of_nodup_map hxs hw hx (again.trans same)
        exact ⟨z', List.mem_append_left _ hz', swap _ hx _ hy z z' again joined joined'⟩
      · exact absurd same.symm (others x hx)
    · refine ⟨z, List.mem_append_right _ (List.mem_filter.mpr ⟨hx, ?_⟩), refl z⟩
      simpa using others
  · obtain ⟨hy, absent⟩ := List.mem_filter.mp new
    obtain ⟨z', hz', ⟨hw, same, -⟩ | ⟨-, rfl⟩⟩ := exists_of_forall₂ meets'.flip hy
    · have old : key z ∈ xs.map key := same ▸ List.mem_map_of_mem hw
      exact absurd old (by simpa using absent)
    · exact ⟨z', List.mem_append_left _ hz', refl z'⟩

end JoinedByKey

/-! ### Three lists -/

/-- Joining keeps the key of the first entry and a property of both, and gives at most one
result. Where three entries can be joined from the left, and the last two of them with each
other, they can be joined from the right with the same result. -/
structure Associates (key : α → κ) (Joined : α → α → α → Prop) (P : α → Prop) : Prop where
  keeps : ∀ ⦃x y z : α⦄, Joined x y z → key z = key x
  proper : ∀ ⦃x y z : α⦄, P x → P y → Joined x y z → P z
  unique : ∀ ⦃x y z z' : α⦄, Joined x y z → Joined x y z' → z = z'
  assoc : ∀ ⦃x y z xy yz xyz : α⦄, P y → Joined x y xy → Joined xy z xyz → Joined y z yz →
    Joined x yz xyz

section Associates

variable {P : α → Prop} (laws : Associates key Joined P) {as bs cs abs bcs abcs : List α} {u : α}
include laws

/-- If the key of `u` is in the list already, `u` may enter before an entry with another
key. -/
theorem Associates.enters_comm (first : Enters key Joined y xs xs')
    (second : Enters key Joined u xs' zs) (apart : key y ≠ key u) (old : key u ∈ xs.map key) :
    ∃ ws, Enters key Joined u xs ws ∧ Enters key Joined y ws zs := by
  induction first generalizing zs with
  | atEnd => cases old
  | @joined x z xs same joined =>
    have kept : key z = key x := laws.keeps joined
    obtain _ | ⟨again, _⟩ | ⟨other, rest⟩ := second
    · exact absurd (same.symm.trans (kept.symm.trans again)) apart
    · rw [kept] at other
      exact ⟨_, .later other rest, .joined same joined⟩
  | @later x xs xs' other first ih =>
    obtain _ | ⟨same, joined⟩ | ⟨apart', rest⟩ := second
    · have kept := laws.keeps joined
      exact ⟨_, .joined same joined, .later (kept ▸ other) first⟩
    · have old : key u ∈ xs.map key := (List.mem_cons.mp old).resolve_left apart'.symm
      obtain ⟨ws, left, right⟩ := ih rest old
      exact ⟨_, .later apart' left, .later other right⟩

theorem Associates.enterAll_comm (first : EnterAll key Joined xs ys xs')
    (second : Enters key Joined u xs' zs) (apart : ∀ y ∈ ys, key y ≠ key u)
    (old : key u ∈ xs.map key) :
    ∃ ws, Enters key Joined u xs ws ∧ EnterAll key Joined ws ys zs := by
  induction first generalizing zs with
  | nil xs => exact ⟨zs, second, .nil zs⟩
  | cons enters _ ih =>
    obtain ⟨other, apart⟩ := List.forall_mem_cons.mp apart
    obtain ⟨vs, left, rest⟩ := ih second apart (enters.subset_keys laws.keeps old)
    obtain ⟨ws, left, right⟩ := laws.enters_comm enters left other old
    exact ⟨ws, left, .cons right rest⟩

/-- Two entries with the same key may be joined before they enter. -/
theorem Associates.enters_joined {yu : α} (first : Enters key Joined y xs xs')
    (second : Enters key Joined u xs' zs) (hy : P y) (same : key y = key u)
    (joined : Joined y u yu) : Enters key Joined yu xs zs := by
  have kept : key yu = key y := laws.keeps joined
  induction first generalizing zs with
  | atEnd =>
    obtain _ | ⟨_, joined'⟩ | ⟨other, _⟩ := second
    · rw [laws.unique joined' joined]
      exact .atEnd
    · exact absurd same other
  | joined meets joined' =>
    obtain _ | ⟨_, joined''⟩ | ⟨other, _⟩ := second
    · exact .joined (meets.trans kept.symm) (laws.assoc hy joined' joined'' joined)
    · exact absurd ((laws.keeps joined').trans (meets.trans same)) other
  | later other _ ih =>
    obtain _ | ⟨again, _⟩ | ⟨_, rest⟩ := second
    · exact absurd (again.trans same.symm) other
    · exact .later (kept ▸ other) (ih rest)

/-- An entry may enter the second list before that enters the first. -/
theorem Associates.enterAll_enters {bs' : List α} (first : EnterAll key Joined as bs abs)
    (second : Enters key Joined u abs abcs) (inner : Enters key Joined u bs bs')
    (hbs : ∀ b ∈ bs, P b) (nodup : (bs.map key).Nodup) : EnterAll key Joined as bs' abcs := by
  induction inner generalizing as with
  | atEnd =>
    cases first
    exact .cons second (.nil abcs)
  | @joined b z bs same joined =>
    obtain _ | ⟨enters, rest⟩ := first
    obtain ⟨new, -⟩ := List.nodup_cons.mp nodup
    have apart : ∀ w ∈ bs, key w ≠ key u := by
      intro w hw again
      exact new (same.trans again.symm ▸ List.mem_map_of_mem hw)
    have old := enters.mem_keys laws.keeps
    obtain ⟨ws, left, right⟩ := laws.enterAll_comm rest second apart (same ▸ old)
    have hb := (List.forall_mem_cons.mp hbs).1
    exact .cons (laws.enters_joined enters left hb same joined) right
  | later other inner ih =>
    obtain _ | ⟨enters, rest⟩ := first
    obtain ⟨-, nodup⟩ := List.nodup_cons.mp nodup
    exact .cons enters (ih rest (List.forall_mem_cons.mp hbs).2 nodup)

/-- Three lists may be joined from the right, if they can be joined from the left and the
last two with each other. -/
theorem Associates.enterAll_assoc (left : EnterAll key Joined as bs abs)
    (whole : EnterAll key Joined abs cs abcs) (right : EnterAll key Joined bs cs bcs)
    (hbs : ∀ b ∈ bs, P b) (hcs : ∀ c ∈ cs, P c) (nodup : (bs.map key).Nodup) :
    EnterAll key Joined as bcs abcs := by
  induction right generalizing abs with
  | nil bs =>
    cases whole
    exact left
  | cons inner _ ih =>
    obtain _ | ⟨enters, rest⟩ := whole
    obtain ⟨hc, hcs⟩ := List.forall_mem_cons.mp hcs
    have hbs' := inner.forall_mem hbs hc fun x z hx _ joined => laws.proper hx hc joined
    have more := laws.enterAll_enters left enters inner hbs nodup
    exact ih more rest hbs' hcs (inner.nodup laws.keeps nodup)

end Associates

end RuleText
