import RuleText.Proofs.Formula.Completeness
import RuleText.Proofs.Formula.Lexing

/-!
# Reading what has been written

A text is written from parts, and each part is read as a phrase of the grammar wherever a
blank follows it or the text ends (`ReadsAs`). A sum whose sign stands between blanks is
read as the sum of what its sides are read as. So the tree of a written text is put
together in the way the text is, and it is what `parse` gives (`parse_of_readsAs`).
-/

namespace RuleText.Formula

/-! ### Numbers -/

theorem digits_ofNat (n : Nat) : Text.ofNat n ≠ [] ∧ ∀ c ∈ Text.ofNat n, Digit c :=
  ⟨Nat.toDigits_ne_nil, fun _ hc =>
    isDigit_iff.mp (Nat.isDigit_of_mem_toDigits (by decide) (by decide) hc)⟩

theorem digitsValue_ofNat (n : Nat) : Text.digitsValue (Text.ofNat n) = n := by
  have value : Nat.ofDigitChars 10 (Text.ofNat n) 0 = n := Nat.ofDigitChars_ten_toDigits
  rwa [Nat.ofDigitChars_eq_foldl] at value

theorem writes_ofNat {a : Amount} {n : Nat} (h : a.toInt = n) : Writes (Text.ofNat n) a := by
  rw [Writes, digitsValue_ofNat, h]

theorem ofInt_of_nonneg {x : Int} (h : 0 ≤ x) : Text.ofInt x = Text.ofNat x.natAbs := by
  cases x with
  | ofNat n => rfl
  | negSucc n => exact absurd h (by simp)

theorem ofInt_of_neg {x : Int} (h : x < 0) : Text.ofInt x = '-' :: Text.ofNat x.natAbs := by
  cases x with
  | ofNat n => exact absurd h (by simp)
  | negSucc n => rfl

/-! ### Parts of a text -/

/-- The text is read as a phrase with the tree, wherever a blank follows it or the text
ends. -/
def ReadsAs (symbol : Symbol) (t : Text) (tree : symbol.Tree) : Prop :=
  ∀ (start : Nat) (rest : Text) (more : List Token), (∀ c ∈ rest.head?, c ∈ blanks) →
    Lexes (start + t.utf8Size) rest more →
    ∃ tokens, Lexes start (t ++ rest) (tokens ++ more) ∧ Derives symbol tokens tree

namespace ReadsAs

variable {s t : Text} {left right node : Node} {n count size : Amount}

theorem derives {symbol symbol' : Symbol} {tree : symbol.Tree} {tree' : symbol'.Tree}
    (h : ReadsAs symbol t tree)
    (rule : ∀ tokens, Derives symbol tokens tree → Derives symbol' tokens tree') :
    ReadsAs symbol' t tree' := by
  intro start rest more blank lexed
  obtain ⟨tokens, lexed', derives⟩ := h start rest more blank lexed
  exact ⟨tokens, lexed', rule tokens derives⟩

/-- A text that is one token. -/
theorem of_token {symbol : Symbol} {tree : symbol.Tree} (kind : Kind)
    (matching : t ∈ kind.pattern) (noName : kind = .name → t ∉ Kind.dice.pattern)
    (rule : ∀ start, Derives symbol [⟨kind, start, t⟩] tree) : ReadsAs symbol t tree := by
  intro start rest more blank lexed
  exact ⟨[⟨kind, start, t⟩], .token (.of_blank matching noName blank) lexed, rule start⟩

theorem integer (digits : t ≠ [] ∧ ∀ c ∈ t, Digit c) (writes : Writes t n) :
    ReadsAs .signed t (.integer n) :=
  of_token .integer (mem_digits.mpr digits) (fun name => absurd name (by decide))
    fun _ => .unsigned (.bare (.integer rfl writes))

theorem dice (counting : s ≠ [] ∧ ∀ c ∈ s, Digit c) (digits : t ≠ [] ∧ ∀ c ∈ t, Digit c)
    (writesCount : Writes s count) (writesSize : Writes t size) (some : 1 ≤ count.toInt)
    (sided : 1 ≤ size.toInt) : ReadsAs .signed (s ++ 'd' :: t) (.dice count size) := by
  have count_ne : count ≠ 0 := by
    rintro rfl
    exact absurd some (by decide)
  have size_ne : size ≠ 0 := by
    rintro rfl
    exact absurd sided (by decide)
  have noD : 'd' ∉ s := fun mem => absurd (counting.2 'd' mem) (by decide)
  have counted : WritesCount s count := by
    rw [WritesCount, if_neg counting.1]
    exact writesCount
  have matching : s ++ 'd' :: t ∈ Kind.dice.pattern :=
    mem_dice.mpr ⟨s, t, rfl, counting.2, digits⟩
  exact of_token .dice matching (fun name => absurd name (by decide))
    fun _ => .unsigned (.bare (.dice rfl (.intro noD counted writesSize count_ne size_ne)))

/-- A minus needs no blank behind it. -/
theorem negate (h : ReadsAs .signed t node) : ReadsAs .signed ('-' :: t) (.negate node) := by
  intro start rest more blank lexed
  obtain ⟨tokens, lexed', derives⟩ := h (start + Text.utf8Size ['-']) rest more blank
    (by simpa [Nat.add_assoc] using lexed)
  refine ⟨⟨.minus, start, ['-']⟩ :: tokens, ?_, .negate rfl derives⟩
  exact .token (s := ['-']) (.of_symbol rfl (t ++ rest)) lexed'

theorem exists_symbol (op : Operator) : ∃ c kind, op.text = [c] ∧
    Token.symbol? c = some kind ∧ kind.operator? = some op := by
  cases op with
  | add => exact ⟨'+', .plus, rfl, rfl, rfl⟩
  | sub => exact ⟨'-', .minus, rfl, rfl, rfl⟩
  | mul => exact ⟨'*', .star, rfl, rfl, rfl⟩
  | div => exact ⟨'/', .slash, rfl, rfl, rfl⟩

theorem sum {op : Operator} (hs : ReadsAs .addition s left) (ht : ReadsAs .signed t right)
    (additive : op = .add ∨ op = .sub) :
    ReadsAs .addition (s ++ ' ' :: (op.text ++ ' ' :: t)) (.binary left op right) := by
  intro start rest more blank lexed
  obtain ⟨c, kind, text_eq, symbol, operator⟩ := exists_symbol op
  have space : ' ' ∈ blanks := List.mem_cons_self
  let sign := start + s.utf8Size + ' '.utf8Size
  let behind := sign + Text.utf8Size [c] + ' '.utf8Size
  obtain ⟨us, lexedRight, derivesRight⟩ := ht behind rest more blank
    (by simpa [behind, sign, text_eq, Nat.add_assoc] using lexed)
  have lexedSign : Lexes sign ([c] ++ ' ' :: (t ++ rest)) (⟨kind, sign, [c]⟩ :: (us ++ more)) :=
    .token (.of_symbol symbol _) (.blank space lexedRight)
  obtain ⟨ts, lexedLeft, derivesLeft⟩ := hs start (' ' :: ([c] ++ ' ' :: (t ++ rest))) _
    (by simpa using space) (.blank space lexedSign)
  refine ⟨ts ++ ⟨kind, sign, [c]⟩ :: us, ?_,
    .binarySum derivesLeft operator additive (.factor derivesRight)⟩
  simpa [text_eq] using lexedLeft

end ReadsAs

/-- A text that is read as a sum is parsed to its tree. -/
theorem parse_of_readsAs {t : Text} {node : Node} (h : ReadsAs .addition t node) :
    parse t = .ok node := by
  obtain ⟨tokens, lexed, derives⟩ := h 0 [] [] nofun (.nil _)
  rw [List.append_nil, List.append_nil] at lexed
  rw [parse_eq_ok_iff, Token.ofText, ← lexed.eq_ofTextFrom]
  exact .single derives

end RuleText.Formula
