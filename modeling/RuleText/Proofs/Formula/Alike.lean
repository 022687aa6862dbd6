import Mathlib.Data.List.Forall2
import RuleText.Formula.Parser
import RuleText.Proofs.Formula.Lexing

/-!
# Tokens in other places

Two texts whose tokens have the same kinds and the same texts differ only in the blanks between
their tokens. Two runs of the parser on them go hand in hand (`Agree`): they give related results
or stop with like faults, unless one of them stops at a detached tag. What is read from a single
token does not depend on its place.
-/

namespace RuleText.Formula

/-! ### Kinds and texts of tokens -/

/-- The tokens differ only in their places. -/
inductive Token.Alike : Token → Token → Prop
  | intro (kind : Kind) (start start' : Nat) (text : Text) :
      Alike ⟨kind, start, text⟩ ⟨kind, start', text⟩

/-- Token by token, the lists differ only in places. -/
abbrev AllAlike (ts ts' : List Token) : Prop :=
  List.Forall₂ Token.Alike ts ts'

/-- What a token is apart from its place. -/
def Token.content (token : Token) : Kind × Text :=
  (token.kind, token.text)

theorem Token.Alike.of_content {token token' : Token} (h : token.content = token'.content) :
    token.Alike token' := by
  obtain ⟨kind, start, text⟩ := token
  obtain ⟨kind', start', text'⟩ := token'
  obtain ⟨rfl, rfl⟩ := Prod.mk.inj h
  exact .intro kind start start' text

theorem allAlike_of_content {ts ts' : List Token}
    (h : ts.map Token.content = ts'.map Token.content) : AllAlike ts ts' := by
  rw [← List.forall₂_eq_eq_eq, List.forall₂_map_left_iff, List.forall₂_map_right_iff] at h
  exact h.imp fun _ _ => .of_content

/-- The tokens of a text are the text without its blanks. -/
theorem Lexes.flatMap_text {start : Nat} {t : Text} {tokens : List Token}
    (h : Lexes start t tokens) : tokens.flatMap Token.text = t.filter (· ∉ blanks) := by
  induction h with
  | nil => rfl
  | @blank start c t tokens blank _ ih => rw [ih, List.filter_cons_of_neg (by simpa using blank)]
  | @token start kind s rest tokens munches _ ih =>
    have kept : s.filter (· ∉ blanks) = s :=
      List.filter_eq_self.mpr fun c hc => decide_eq_true (munches.unblank c hc)
    rw [List.flatMap_cons, ih, List.filter_append, kept]

/-- Texts with the same tokens differ only in blanks. -/
theorem filter_eq_of_content {t t' : Text}
    (h : (Token.ofText t).map Token.content = (Token.ofText t').map Token.content) :
    t.filter (· ∉ blanks) = t'.filter (· ∉ blanks) := by
  have text (tokens : List Token) :
      tokens.flatMap Token.text = (tokens.map Token.content).flatMap Prod.snd := by
    rw [List.flatMap_map]
    rfl
  rw [← (lexes_ofTextFrom 0 t).flatMap_text, ← (lexes_ofTextFrom 0 t').flatMap_text, text, text]
  exact congrArg _ h

/-! ### Faults and results in other places -/

/-- The faults have the same cause, and the tokens at fault differ only in their places. -/
structure Fault.Alike (f f' : Fault) : Prop where
  cause : f.cause = f'.cause
  token : Option.Rel Token.Alike f.token f'.token

theorem Fault.Alike.unexpected (kinds : List Kind) {ts ts' : List Token} (h : AllAlike ts ts') :
    (Fault.unexpected kinds ts).Alike (Fault.unexpected kinds ts') := by
  cases h with
  | nil => exact ⟨rfl, .none⟩
  | cons same _ =>
    cases same with
    | intro kind start start' text =>
      unfold Fault.unexpected
      dsimp only
      split
      · exact ⟨rfl, .some (.intro kind start start' text)⟩
      · exact ⟨rfl, .some (.intro kind start start' text)⟩

theorem cause_toError (f : Fault) (t : Text) : (f.toError t).cause = f.cause := by
  unfold Fault.toError
  cases f.token <;> rfl

/-- Two runs go hand in hand: one of them stops at a detached tag, or both stop with like faults,
or their results are in the relation. -/
inductive Agree {α β : Type} (related : α → β → Prop) : Except Fault α → Except Fault β → Prop
  | detached {f : Fault} (run' : Except Fault β) :
      f.cause = .detachedTag → Agree related (.error f) run'
  | detached' (run : Except Fault α) {f' : Fault} :
      f'.cause = .detachedTag → Agree related run (.error f')
  | fails {f f' : Fault} : f.Alike f' → Agree related (.error f) (.error f')
  | gives {a : α} {b : β} : related a b → Agree related (.ok a) (.ok b)

namespace Agree

variable {α β γ δ : Type} {related : α → β → Prop} {related' : γ → δ → Prop}

theorem bind {run : Except Fault α} {run' : Except Fault β} {f : α → Except Fault γ}
    {f' : β → Except Fault δ} (first : Agree related run run')
    (next : ∀ a b, related a b → Agree related' (f a) (f' b)) :
    Agree related' (run >>= f) (run' >>= f') := by
  cases first with
  | detached _ h => exact .detached _ h
  | detached' _ h => exact .detached' _ h
  | fails h => exact .fails h
  | gives h => exact next _ _ h

/-- A computation that gives equal values goes first. -/
theorem bind_value {run run' : Except Fault α} {f : α → Except Fault γ} {f' : α → Except Fault δ}
    (first : Agree Eq run run') (next : ∀ a, Agree related' (f a) (f' a)) :
    Agree related' (run >>= f) (run' >>= f') :=
  first.bind fun a _ same => same ▸ next a

end Agree

/-- The results are equal, and the tokens that are left differ only in places. -/
def Together {α : Type} {P P' : List Token → Prop} (read : α × { rest // P rest })
    (read' : α × { rest // P' rest }) : Prop :=
  read.1 = read'.1 ∧ AllAlike read.2.1 read'.2.1

/-- A reader goes first. -/
theorem Agree.bind_read {α γ δ : Type} {P P' : List Token → Prop} {related : γ → δ → Prop}
    {run : Except Fault (α × { rest // P rest })} {run' : Except Fault (α × { rest // P' rest })}
    {f : α × { rest // P rest } → Except Fault γ} {f' : α × { rest // P' rest } → Except Fault δ}
    (first : Agree Together run run')
    (next : ∀ a rest rest' h h', AllAlike rest rest' →
      Agree related (f (a, ⟨rest, h⟩)) (f' (a, ⟨rest', h'⟩))) :
    Agree related (run >>= f) (run' >>= f') := by
  refine first.bind ?_
  rintro ⟨a, rest, h⟩ ⟨_, rest', h'⟩ ⟨rfl, left⟩
  exact next a rest rest' h h' left

namespace Parser

variable {ts ts' : List Token} {token token' : Token}

/-! ### Parts of tokens -/

theorem startsWith_alike (kind : Kind) (h : AllAlike ts ts') :
    startsWith kind ts = startsWith kind ts' := by
  cases h with
  | nil => rfl
  | cons same _ =>
    cases same
    rfl

/-- Both lists are at the end of a formula, or neither is. -/
theorem atEnd_alike (h : AllAlike ts ts') : ts = [] ∨ startsWith .rightParen ts = true ↔
    ts' = [] ∨ startsWith .rightParen ts' = true := by
  rw [startsWith_alike .rightParen h]
  cases h with
  | nil => exact Iff.rfl
  | cons _ _ => simp

theorem agree_amount (same : token.Alike token') (digits : Text) :
    Agree Eq (amount token digits) (amount token' digits) := by
  unfold amount
  cases Amount.fit? (Text.digitsValue digits) with
  | some n => exact .gives rfl
  | none => exact .fails ⟨rfl, .some same⟩

theorem text_eq_of_alike (same : token.Alike token') : token.text = token'.text := by
  cases same
  rfl

/-- Reading the size of dice whose count has been read. -/
theorem agree_diceSides (same : token.Alike token') (digits : Text) (count : Amount) :
    Agree Eq
      (do
        let size ← amount token digits
        if count = 0 ∨ size = 0 then .error ⟨.zeroDice, some token⟩
        return Node.dice count size)
      (do
        let size ← amount token' digits
        if count = 0 ∨ size = 0 then .error ⟨.zeroDice, some token'⟩
        return Node.dice count size) := by
  refine (agree_amount same digits).bind_value fun size => ?_
  split
  · exact .fails ⟨rfl, .some same⟩
  · exact .gives rfl

theorem agree_diceLiteral (same : token.Alike token') :
    Agree Eq (diceLiteral token) (diceLiteral token') := by
  unfold diceLiteral
  rw [text_eq_of_alike same]
  obtain ⟨counting, digits⟩ := (Text.splitOnce 'd' token'.text).getD ([], [])
  dsimp only
  split
  · exact agree_diceSides same digits 1
  · exact (agree_amount same counting).bind_value (agree_diceSides same digits)

theorem agree_diceSize (same : token.Alike token') :
    Agree Eq (diceSize token) (diceSize token') := by
  unfold diceSize
  rw [text_eq_of_alike same]
  cases Text.after? ['d'] token'.text with
  | none => exact .fails ⟨rfl, .some same⟩
  | some size => exact (agree_amount same size).bind_value fun n => .gives rfl

/-- A token of the kind is there for both or for neither. -/
theorem agree_expect (kind : Kind) (h : AllAlike ts ts') :
    Agree (fun rest rest' => AllAlike rest.1 rest'.1) (expect kind ts) (expect kind ts') := by
  cases h with
  | nil => exact .fails ⟨rfl, .none⟩
  | cons same more =>
    have unexpected := Fault.Alike.unexpected [kind] (.cons same more)
    cases same with
    | intro found start start' text =>
      unfold expect
      dsimp only
      split
      · exact .gives more
      · exact .fails unexpected

end Parser

end RuleText.Formula
