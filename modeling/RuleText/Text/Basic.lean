/-!
# Texts as lists of characters

Rule text, names, tags and messages are all lists of characters, so that every
operation on them is a recursion over a list. Positions shown to a reader count
bytes of the UTF-8 form; `Text.utf8Size` gives that count.

The main facts are that cutting a text at a character loses nothing but that
character (`Text.eq_of_splitOnce`), and that a beginning taken off a text can be
put back (`Text.eq_of_after?`).
-/

namespace RuleText

/-- A text is the list of its Unicode scalar values. -/
abbrev Text := List Char

namespace Text

/-- The number of bytes of the UTF-8 form. -/
def utf8Size : Text → Nat
  | [] => 0
  | c :: t => c.utf8Size + utf8Size t

@[simp] theorem utf8Size_nil : utf8Size [] = 0 := rfl

@[simp] theorem utf8Size_cons (c : Char) (t : Text) :
    utf8Size (c :: t) = c.utf8Size + utf8Size t := rfl

@[simp] theorem utf8Size_append (s t : Text) : utf8Size (s ++ t) = utf8Size s + utf8Size t := by
  induction s with
  | nil => simp
  | cons c s ih => simp only [List.cons_append, utf8Size_cons, ih, Nat.add_assoc]

/-- The parts before and after the first `c`, when there is one. -/
def splitOnce (c : Char) : Text → Option (Text × Text)
  | [] => none
  | d :: t => if d = c then some ([], t) else (splitOnce c t).map fun (a, b) => (d :: a, b)

theorem eq_of_splitOnce {c : Char} {t a b : Text} (h : splitOnce c t = some (a, b)) :
    t = a ++ c :: b ∧ c ∉ a := by
  induction t generalizing a b with
  | nil => simp [splitOnce] at h
  | cons d t ih =>
    by_cases hd : d = c
    · simp [splitOnce, hd] at h
      simp [hd, h.1, ← h.2]
    · simp [splitOnce, hd] at h
      obtain ⟨a', h', rfl⟩ := h
      have := ih h'
      simp [← this.1, this.2, Ne.symm hd]

theorem splitOnce_eq_none {c : Char} {t : Text} : splitOnce c t = none ↔ c ∉ t := by
  induction t with
  | nil => simp [splitOnce]
  | cons d t ih =>
    by_cases hd : d = c
    · simp [splitOnce, hd]
    · simp [splitOnce, hd, Ne.symm hd, ih]

theorem splitOnce_append {c : Char} {a b : Text} (h : c ∉ a) :
    splitOnce c (a ++ c :: b) = some (a, b) := by
  induction a with
  | nil => simp [splitOnce]
  | cons d a ih =>
    obtain ⟨hd, ha⟩ : c ≠ d ∧ c ∉ a := by simpa using h
    rw [List.cons_append, splitOnce, if_neg (Ne.symm hd), ih ha]
    rfl

/-- What follows `lead`, when the text begins with it. -/
def after? : Text → Text → Option Text
  | [], t => some t
  | _ :: _, [] => none
  | c :: lead, d :: t => if c = d then after? lead t else none

theorem eq_of_after? {lead t rest : Text} (h : after? lead t = some rest) : t = lead ++ rest := by
  induction lead generalizing t with
  | nil => simpa [after?] using h
  | cons c lead ih =>
    cases t with
    | nil => simp [after?] at h
    | cons d t =>
      by_cases hc : c = d
      · simp [after?, hc] at h
        simp [hc, ih h]
      · simp [after?, hc] at h

@[simp] theorem after?_append (lead rest : Text) : after? lead (lead ++ rest) = some rest := by
  induction lead with
  | nil => rfl
  | cons c lead ih => simp [after?, ih]

/-- Whether `part` occurs somewhere in the text. -/
def occursIn (part : Text) : Text → Bool
  | [] => part.isEmpty
  | c :: t => part.isPrefixOf (c :: t) || occursIn part t

/-- Every occurrence of `old`, found from the left without overlaps, becomes
`new`. An empty `old` is taken to occur nowhere. -/
def replaceAll (old new : Text) : Text → Text
  | [] => []
  | c :: t =>
    if old ≠ [] ∧ old.isPrefixOf (c :: t) then
      new ++ replaceAll old new (t.drop (old.length - 1))
    else c :: replaceAll old new t
termination_by t => t.length
decreasing_by
  · simp only [List.length_drop, List.length_cons]
    omega
  · simp only [List.length_cons]
    omega

/-- Every `c` becomes `new`. -/
def replaceChar (c : Char) (new t : Text) : Text :=
  t.flatMap fun d => if d = c then new else [d]

/-- The texts in order, with `sep` between neighbours. -/
def joined (sep : Text) (parts : List Text) : Text :=
  sep.intercalate parts

/-- ASCII capitals become small letters; every other character stays. -/
def lowerAscii (t : Text) : Text :=
  t.map Char.toLower

/-- Whether the first text comes strictly before the second, character by
character. For valid texts this is also the order of their UTF-8 bytes. -/
def before : Text → Text → Bool
  | _, [] => false
  | [], _ :: _ => true
  | a :: s, b :: t => if a = b then before s t else a.toNat < b.toNat

/-- Adds a text to an ascending list without repeats. -/
def insertOnce (x : Text) : List Text → List Text
  | [] => [x]
  | y :: ys =>
    if x = y then y :: ys
    else if before x y then x :: y :: ys
    else y :: insertOnce x ys

/-- The members of a list in ascending order, each once. -/
def sortedSet (xs : List Text) : List Text :=
  xs.foldl (fun set x => insertOnce x set) []

/-- A natural number in decimal digits. -/
def ofNat (n : Nat) : Text :=
  Nat.toDigits 10 n

/-- An integer in decimal digits, with a minus sign when negative. -/
def ofInt : Int → Text
  | .ofNat n => ofNat n
  | .negSucc n => '-' :: ofNat (n + 1)

/-- The number that a text of decimal digits writes, read from the left. -/
def digitsValue (t : Text) : Nat :=
  t.foldl (fun n c => 10 * n + (c.toNat - '0'.toNat)) 0

end Text

end RuleText
