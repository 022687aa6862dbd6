import Mathlib.Data.List.Infix
import Mathlib.Order.Bounds.Basic
import RuleText.Directive.Occurrence
import RuleText.Proofs.Text.Cut
import RuleText.Proofs.Text.Order

/-!
# The bracket that closes a payload

The payload of a damage block goes up to the first closing bracket that matches no opening
bracket of the payload. Among the bytes of the UTF-8 form this is the least place of a closing
bracket up to which the brackets are balanced, and it lies between characters
(`isLeast_closingOffset?`).

The search is the same as a loop over the bytes that counts open brackets. The count is an
integer here, and what one byte does to it never makes it negative (`countByte_eq_some_iff`).
So after any bytes it is the excess of opening brackets in them, and no beginning of them
closes more brackets than it opens (`foldlM_countByte_eq_some_iff`).

Bytes and characters agree on brackets because a bracket is a single byte that is part of no
other character (`Text.eq_of_mem_bytesOf`).
-/

namespace RuleText

namespace Text

/-- The offset lies between two characters of a text, or at one of its ends. -/
def Boundary (t : Text) (offset : ℕ) : Prop :=
  ∃ front behind, t = front ++ behind ∧ front.utf8Size = offset

/-- A number of one byte is a byte of its own character only: all bytes of longer forms are
greater. -/
theorem eq_of_mem_bytesOf {a c : Char} (single : a.toNat < 128) (h : a.toNat ∈ bytesOf c) :
    c = a := by
  have same : c.toNat = a.toNat := by
    simp only [bytesOf, String.utf8EncodeChar, Char.toNat_val] at h
    split_ifs at h <;>
      simp only [List.map_cons, List.map_nil, List.mem_cons, List.not_mem_nil, or_false,
        UInt8.toNat_ofNat'] at h <;> omega
  exact Char.toNat_inj.mp same

end Text

namespace Directive

/-! ### Brackets among bytes -/

/-- The byte of an opening bracket. -/
def openingByte : ℕ := '['.toNat

/-- The byte of a closing bracket. -/
def closingByte : ℕ := ']'.toNat

/-- At byte `stop` stands a closing bracket, and between `start` and it there are as many
opening as closing brackets, with no beginning that has more closing than opening ones. -/
structure ClosesAt (bs : List ℕ) (start stop : ℕ) : Prop where
  start_le : start ≤ stop
  at_stop : bs[stop]? = some closingByte
  count_eq : ((bs.take stop).drop start).count openingByte =
    ((bs.take stop).drop start).count closingByte
  count_le : ∀ p, p <+: (bs.take stop).drop start → p.count closingByte ≤ p.count openingByte

/-- How many more brackets are opened than closed. -/
def excess (bs : List ℕ) : ℤ :=
  bs.count openingByte - bs.count closingByte

theorem excess_nil : excess [] = 0 := rfl

theorem excess_append (p q : List ℕ) : excess (p ++ q) = excess p + excess q := by
  simp only [excess, List.count_append, Int.natCast_add]
  omega

theorem excess_opening : excess [openingByte] = 1 := rfl

theorem excess_closing : excess [closingByte] = -1 := rfl

theorem excess_other {b : ℕ} (not_opening : b ≠ openingByte) (not_closing : b ≠ closingByte) :
    excess [b] = 0 := by
  rw [excess, List.count_singleton, List.count_singleton, if_neg (by simpa using not_opening),
    if_neg (by simpa using not_closing)]
  rfl

/-- A closing place, said of the bytes that are read up to it. -/
theorem closesAt_iff {bs : List ℕ} {start stop : ℕ} : ClosesAt bs start stop ↔
    ∃ read rest, bs.drop start = read ++ closingByte :: rest ∧ stop = start + read.length ∧
      excess read = 0 ∧ ∀ p, p <+: read → 0 ≤ excess p := by
  constructor
  · rintro ⟨start_le, at_stop, count_eq, count_le⟩
    obtain ⟨i, rfl⟩ := Nat.exists_eq_add_of_le start_le
    rw [← List.getElem?_drop] at at_stop
    rw [List.drop_take, Nat.add_sub_cancel_left] at count_eq count_le
    obtain ⟨within, here⟩ := List.getElem?_eq_some_iff.mp at_stop
    refine ⟨(bs.drop start).take i, (bs.drop start).drop (i + 1), ?_, ?_, ?_, fun p hp => ?_⟩
    · rw [← here, List.getElem_cons_drop, List.take_append_drop]
    · rw [List.length_take, Nat.min_eq_left within.le]
    · rw [excess, count_eq, Int.sub_self]
    · exact Int.sub_nonneg_of_le (Int.ofNat_le.mpr (count_le p hp))
  · rintro ⟨read, rest, split, rfl, balanced, nonneg⟩
    have between : (bs.take (start + read.length)).drop start = read := by
      rw [List.drop_take, Nat.add_sub_cancel_left, split, List.take_left]
    refine ⟨Nat.le_add_right _ _, ?_, ?_, ?_⟩
    · rw [← List.getElem?_drop, split, List.getElem?_append_right (Nat.le_refl _), Nat.sub_self]
      rfl
    · rw [between]
      exact Int.ofNat_inj.mp (Int.eq_of_sub_eq_zero balanced)
    · rw [between]
      exact fun p hp => Int.ofNat_le.mp (Int.le_of_sub_nonneg (nonneg p hp))

/-! ### A loop over the bytes -/

/-- What a byte does to the count of open brackets. There is no next count at the bracket that
closes the payload. -/
def countByte (depth : ℤ) (b : ℕ) : Option ℤ :=
  if b = openingByte then some (depth + 1)
  else if b = closingByte then if depth = 0 then none else some (depth - 1)
  else some depth

/-- Reads bytes, the first of which is at `offset`, up to the bracket that closes the payload,
and gives the place of that bracket. -/
def closingInBytes? (depth : ℤ) (offset : ℕ) : List ℕ → Option ℕ
  | [] => none
  | b :: bs =>
    match countByte depth b with
    | none => some offset
    | some depth => closingInBytes? depth (offset + 1) bs

section Loop

variable {depth next : ℤ} {offset start stop b : ℕ} {bs read : List ℕ}

theorem countByte_opening : countByte depth openingByte = some (depth + 1) :=
  if_pos rfl

theorem countByte_closing :
    countByte depth closingByte = if depth = 0 then none else some (depth - 1) := by
  rw [countByte, if_neg (by decide), if_pos rfl]

theorem countByte_other (not_opening : b ≠ openingByte) (not_closing : b ≠ closingByte) :
    countByte depth b = some depth := by
  rw [countByte, if_neg not_opening, if_neg not_closing]

theorem countByte_eq_none_iff : countByte depth b = none ↔ b = closingByte ∧ depth = 0 := by
  unfold countByte
  split_ifs with is_opening is_closing zero
  · exact iff_of_false nofun fun h => absurd (is_opening.symm.trans h.1) (by decide)
  · exact iff_of_true rfl ⟨is_closing, zero⟩
  · exact iff_of_false nofun fun h => zero h.2
  · exact iff_of_false nofun fun h => is_closing h.1

/-- One byte changes the count by its excess, and a count that was not negative stays so. -/
theorem countByte_eq_some_iff (nonneg : 0 ≤ depth) :
    countByte depth b = some next ↔ next = depth + excess [b] ∧ 0 ≤ next := by
  by_cases is_opening : b = openingByte
  · rw [is_opening, countByte_opening, excess_opening, Option.some_inj]
    omega
  by_cases is_closing : b = closingByte
  · rw [is_closing, countByte_closing, excess_closing]
    split_ifs with zero
    · exact iff_of_false nofun (by omega)
    · rw [Option.some_inj]
      omega
  · rw [countByte_other is_opening is_closing, excess_other is_opening is_closing, Option.some_inj]
    omega

/-- Bytes are read without an end exactly if no beginning of them closes more brackets than it
opens, and the count is then their excess. -/
theorem foldlM_countByte_eq_some_iff :
    read.foldlM countByte 0 = some next ↔
      next = excess read ∧ ∀ p, p <+: read → 0 ≤ excess p := by
  induction read using List.reverseRecOn generalizing next with
  | nil => simp [excess_nil, eq_comm]
  | append_singleton read b ih =>
    have step : (read ++ [b]).foldlM countByte 0 = some next ↔
        ∃ d, read.foldlM countByte 0 = some d ∧ countByte d b = some next := by
      simp [List.foldlM_append, Option.bind_eq_some_iff]
    rw [step]
    constructor
    · rintro ⟨d, counted, next_eq⟩
      obtain ⟨rfl, nonneg⟩ := ih.mp counted
      have before := nonneg read (List.prefix_refl read)
      obtain ⟨rfl, after⟩ := (countByte_eq_some_iff before).mp next_eq
      rw [← excess_append] at after ⊢
      refine ⟨rfl, fun p hp => ?_⟩
      obtain rfl | earlier := List.prefix_concat_iff.mp hp
      · exact after
      · exact nonneg p earlier
    · rintro ⟨rfl, nonneg⟩
      have earlier : ∀ p, p <+: read → 0 ≤ excess p :=
        fun p hp => nonneg p (hp.trans (List.prefix_append read [b]))
      refine ⟨excess read, ih.mpr ⟨rfl, earlier⟩, ?_⟩
      rw [countByte_eq_some_iff (earlier read (List.prefix_refl read)), ← excess_append]
      exact ⟨rfl, nonneg _ (List.prefix_refl _)⟩

theorem foldlM_countByte_of_not_mem (unopened : openingByte ∉ read)
    (unclosed : closingByte ∉ read) : read.foldlM countByte depth = some depth := by
  induction read with
  | nil => rfl
  | cons b read ih =>
    obtain ⟨not_opening, unopened⟩ := not_or.mp (mt List.mem_cons.mpr unopened)
    obtain ⟨not_closing, unclosed⟩ := not_or.mp (mt List.mem_cons.mpr unclosed)
    rw [List.foldlM_cons, countByte_other (Ne.symm not_opening) (Ne.symm not_closing)]
    exact ih unopened unclosed

/-- Bytes before the end of the loop only move the count. -/
theorem closingInBytes?_append (counted : read.foldlM countByte depth = some next) :
    closingInBytes? depth offset (read ++ bs) = closingInBytes? next (offset + read.length) bs := by
  induction read generalizing depth offset with
  | nil =>
    obtain rfl : depth = next := by simpa using counted
    rfl
  | cons b read ih =>
    obtain ⟨d, first, more⟩ := Option.bind_eq_some_iff.mp counted
    rw [List.cons_append, closingInBytes?, first, List.length_cons, Nat.add_comm read.length,
      ← Nat.add_assoc]
    exact ih more

/-- The loop ends at the first byte for which there is no next count. -/
theorem closingInBytes?_eq_some_iff : closingInBytes? depth offset bs = some stop ↔
    ∃ read b rest d, bs = read ++ b :: rest ∧ stop = offset + read.length ∧
      read.foldlM countByte depth = some d ∧ countByte d b = none := by
  constructor
  · intro found
    induction bs generalizing depth offset with
    | nil => cases found
    | cons b bs ih =>
      rw [closingInBytes?] at found
      cases counted : countByte depth b with
      | none =>
        rw [counted] at found
        cases found
        exact ⟨[], b, bs, depth, rfl, rfl, rfl, counted⟩
      | some next =>
        rw [counted] at found
        obtain ⟨read, last, rest, d, rfl, rfl, more, ends⟩ := ih found
        refine ⟨b :: read, last, rest, d, rfl, ?_, ?_, ends⟩
        · rw [List.length_cons]
          omega
        · exact Option.bind_eq_some_iff.mpr ⟨next, counted, more⟩
  · rintro ⟨read, b, rest, d, rfl, rfl, counted, ends⟩
    rw [closingInBytes?_append counted, closingInBytes?, ends]

/-- The loop finds the places up to which brackets are balanced. -/
theorem closingInBytes?_iff_closesAt :
    closingInBytes? 0 start (bs.drop start) = some stop ↔ ClosesAt bs start stop := by
  rw [closingInBytes?_eq_some_iff, closesAt_iff]
  constructor
  · rintro ⟨read, b, rest, d, split, stop_eq, counted, ends⟩
    obtain ⟨rfl, zero⟩ := countByte_eq_none_iff.mp ends
    obtain ⟨rfl, nonneg⟩ := foldlM_countByte_eq_some_iff.mp counted
    exact ⟨read, rest, split, stop_eq, zero, nonneg⟩
  · rintro ⟨read, rest, split, stop_eq, zero, nonneg⟩
    exact ⟨read, closingByte, rest, excess read, split, stop_eq,
      foldlM_countByte_eq_some_iff.mpr ⟨rfl, nonneg⟩, countByte_eq_none_iff.mpr ⟨rfl, zero⟩⟩

end Loop

/-! ### The search in a text -/

section Search

variable {t : Text} {depth start stop : ℕ}

/-- The byte offset of the bracket that closes the payload at a byte offset, if there is one and
the text can be cut there. -/
def closingOffset? (start : ℕ) (t : Text) : Option ℕ :=
  (Text.cutAt? start t).bind fun (_, behind) =>
    (upToClosing 0 behind).map fun (inner, _) => start + Text.utf8Size inner

theorem count_openingBracket (depth : ℕ) :
    (Text.bytesOf '[').foldlM countByte (depth : ℤ) = some ((depth + 1 : ℕ) : ℤ) := rfl

theorem count_closingBracket (depth : ℕ) :
    (Text.bytesOf ']').foldlM countByte ((depth + 1 : ℕ) : ℤ) = some (depth : ℤ) := by
  have last : countByte ((depth + 1 : ℕ) : ℤ) closingByte = some (depth : ℤ) := by
    rw [countByte_closing, if_neg (by omega), Option.some_inj]
    omega
  exact Option.bind_eq_some_iff.mpr ⟨_, last, rfl⟩

theorem count_otherCharacter {c : Char} (not_opening : c ≠ '[') (not_closing : c ≠ ']')
    (depth : ℤ) : (Text.bytesOf c).foldlM countByte depth = some depth :=
  foldlM_countByte_of_not_mem
    (fun mem => not_opening (Text.eq_of_mem_bytesOf (by decide) mem))
    (fun mem => not_closing (Text.eq_of_mem_bytesOf (by decide) mem))

theorem map_upToClosing_cons (c : Char) (offset : ℕ) :
    ((upToClosing depth t).map fun (inner, rest) => (c :: inner, rest)).map
        (fun (inner, _) => offset + Text.utf8Size inner) =
      (upToClosing depth t).map fun (inner, _) => offset + c.utf8Size + Text.utf8Size inner := by
  rw [Option.map_map]
  congr 1
  funext ⟨inner, rest⟩
  exact (Nat.add_assoc _ _ _).symm

/-- The search over characters and the loop over their bytes find the same bracket. -/
theorem map_upToClosing (depth offset : ℕ) (t : Text) :
    (upToClosing depth t).map (fun (inner, _) => offset + Text.utf8Size inner) =
      closingInBytes? depth offset (Text.bytes t) := by
  fun_induction upToClosing depth t generalizing offset with
  | case1 => rfl
  | case2 depth t ih =>
    rw [map_upToClosing_cons, ih, Text.bytes_cons,
      closingInBytes?_append (count_openingBracket depth), Text.length_bytesOf]
  | case3 t => rfl
  | case4 t depth _ ih =>
    rw [map_upToClosing_cons, ih, Text.bytes_cons,
      closingInBytes?_append (count_closingBracket depth), Text.length_bytesOf]
  | case5 depth c t not_opening not_closing ih =>
    rw [map_upToClosing_cons, ih, Text.bytes_cons,
      closingInBytes?_append (count_otherCharacter not_opening not_closing depth),
      Text.length_bytesOf]

theorem closingOffset?_append (front behind : Text) :
    closingOffset? front.utf8Size (front ++ behind) =
      (upToClosing 0 behind).map fun (inner, _) => front.utf8Size + Text.utf8Size inner := by
  rw [closingOffset?, Text.cutAt?_append]
  rfl

/-- The payload of a damage block is what stands between its opening and the bracket that the
search finds. -/
theorem map_damageBlock? (front behind : Text) :
    let start := (front ++ "@Damage[".toList).utf8Size
    (damageBlock? ("@Damage[".toList ++ behind)).map (fun o => start + o.payload.utf8Size) =
      closingOffset? start (front ++ "@Damage[".toList ++ behind) := by
  intro start
  rw [closingOffset?_append, damageBlock?, Text.after?_append]
  cases closes : upToClosing 0 behind with
  | none => simp [closes]
  | some parts => simp [closes, start]

/-- The search from an offset between characters is the loop over the bytes from there. -/
theorem closingOffset?_eq (boundary : t.Boundary start) :
    closingOffset? start t = closingInBytes? 0 start (t.bytes.drop start) := by
  obtain ⟨front, behind, rfl, rfl⟩ := boundary
  rw [closingOffset?_append, map_upToClosing, Text.bytes_append, ← Text.length_bytes front,
    List.drop_left]
  rfl

theorem boundary_of_closingOffset? (found : closingOffset? start t = some stop) :
    t.Boundary stop ∧ t.Boundary (stop + 1) := by
  obtain ⟨⟨front, behind⟩, cut, closes⟩ := Option.bind_eq_some_iff.mp found
  obtain ⟨⟨inner, rest⟩, read, rfl⟩ := Option.map_eq_some_iff.mp closes
  obtain ⟨rfl, rfl⟩ := Text.of_cutAt? cut
  rw [eq_of_upToClosing read]
  constructor
  · exact ⟨front ++ inner, ']' :: rest, by simp, by simp⟩
  · exact ⟨front ++ inner ++ [']'], rest, by simp, by simp; rfl⟩

/-- From an offset between characters the search finds the least place of a closing bracket up
to which brackets are balanced, or nothing if there is none. The loop over the bytes finds the
same, and its count of open brackets is never negative, whatever has been read. The bracket
that is found stands between characters. -/
theorem isLeast_closingOffset? (boundary : t.Boundary start) :
    (∀ stop, closingOffset? start t = some stop ↔
      IsLeast {place | ClosesAt t.bytes start place} stop) ∧
    (closingOffset? start t = none ↔ ∀ place, ¬ ClosesAt t.bytes start place) ∧
    closingOffset? start t = closingInBytes? 0 start (t.bytes.drop start) ∧
    (∀ read depth, read.foldlM countByte 0 = some depth → 0 ≤ depth ∧ depth = excess read) ∧
    ∀ stop, closingOffset? start t = some stop → t.Boundary stop ∧ t.Boundary (stop + 1) := by
  have closes : ∀ stop, closingOffset? start t = some stop ↔ ClosesAt t.bytes start stop := by
    intro stop
    rw [closingOffset?_eq boundary, closingInBytes?_iff_closesAt]
  refine ⟨fun stop => ⟨fun found => ⟨(closes stop).mp found, fun place closed => ?_⟩,
    fun least => (closes stop).mpr least.1⟩, ?_, closingOffset?_eq boundary, ?_,
    fun _ => boundary_of_closingOffset?⟩
  · -- Only one place closes the payload.
    have same := (closes place).mpr closed
    rw [found] at same
    exact (Option.some.inj same).le
  · rw [Option.eq_none_iff_forall_ne_some]
    exact forall_congr' fun stop => not_congr (closes stop)
  · intro read depth counted
    obtain ⟨depth_eq, nonneg⟩ := foldlM_countByte_eq_some_iff.mp counted
    exact ⟨depth_eq ▸ nonneg read (List.prefix_refl read), depth_eq⟩

/-- A damage block whose payload has brackets, behind a character of two bytes. -/
def nestedBlock : Text := "é @Damage[1d6[fire]] ]".toList

theorem isLeast_closingOffset?_nestedBlock :
    nestedBlock.Boundary 11 ∧ closingOffset? 11 nestedBlock = some 20 ∧
      IsLeast {place | ClosesAt nestedBlock.bytes 11 place} 20 ∧
      nestedBlock.Boundary 20 ∧ nestedBlock.Boundary 21 := by
  have boundary : nestedBlock.Boundary 11 :=
    ⟨"é @Damage[".toList, "1d6[fire]] ]".toList, by decide, by decide⟩
  have found : closingOffset? 11 nestedBlock = some 20 := by decide
  obtain ⟨least, -, -, -, between⟩ := isLeast_closingOffset? boundary
  exact ⟨boundary, found, (least 20).mp found, between 20 found⟩

end Search

end Directive

end RuleText
