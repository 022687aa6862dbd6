import RuleText.Damage.Term

/-!
# Damage instances

An instance of damage is a list of groups, each with its terms and its tags, such
as `2d6 + 4 slashing plus 1d4 fire`. Groups and terms keep the order in which
they came.

Two groups belong together when their tags are the same set. Merging brings
groups that belong together into one, in which terms of the same shape are added;
appending leaves all groups apart.
-/

namespace RuleText.Damage

/-- Terms with the tags they share. -/
structure Group where
  terms : List Term
  tags : List Text
deriving DecidableEq, Repr

namespace Group

/-- A group of one term without tags. -/
def ofTerm (t : Term) : Group := ⟨[t], []⟩

/-- Whether the tags of two groups are the same set. -/
def sameTags (a b : Group) : Bool :=
  a.tags.all b.tags.contains && b.tags.all a.tags.contains

/-- Adds a term to the first of the terms that has its shape, or else puts it at
the end. -/
def addTerm (term : Term) : List Term → Except EvalError (List Term)
  | [] => .ok [term]
  | t :: terms =>
    let attempt := t.absorb term
    match attempt.result with
    | .error e => .error e
    | .ok true => .ok (attempt.state :: terms)
    | .ok false => (addTerm term terms).map (t :: ·)

/-- Adds all terms of another group, whose tags do not matter. -/
def absorb (g other : Group) : Except EvalError Group :=
  (other.terms.foldlM (fun terms t => addTerm t terms) g.terms).map fun terms => { g with terms }

/-- The terms without the tags. -/
def magnitude (g : Group) : Text :=
  Text.joined " + ".toList (g.terms.map Term.text)

/-- The terms, then each tag after a space. -/
def text (g : Group) : Text :=
  g.magnitude ++ g.tags.flatMap fun tag => ' ' :: tag

/-- The sum of the averages of the terms. -/
def average (g : Group) : Amount :=
  Amount.sum (g.terms.map Term.average)

end Group

/-- Groups of damage. A short label leaves out their tags when the instance is
written. -/
structure Instance where
  groups : List Group
  shortLabel : Bool
deriving DecidableEq, Repr

namespace Instance

/-- An instance of one term without tags. -/
def ofTerm (t : Term) : Instance := ⟨[.ofTerm t], false⟩

/-- All terms in order. -/
def terms (i : Instance) : List Term :=
  i.groups.flatMap Group.terms

/-- Puts a tag behind the tags of every group. -/
def addTag (tag : Text) (i : Instance) : Instance :=
  { i with groups := i.groups.map fun g => { g with tags := g.tags ++ [tag] } }

/-- Merges a group into the first group with the same tags, or else puts it at the
end. -/
def mergeGroup (group : Group) : List Group → Except EvalError (List Group)
  | [] => .ok [group]
  | g :: groups =>
    if g.sameTags group then (g.absorb group).map (· :: groups)
    else (mergeGroup group groups).map (g :: ·)

/-- The sum of two instances, group by group. -/
def merge (i other : Instance) : Except EvalError Instance :=
  (other.groups.foldlM (fun groups g => mergeGroup g groups) i.groups).map fun groups =>
    { i with groups }

/-- Both instances one after the other, with no groups merged. -/
def append (i other : Instance) : Instance :=
  { i with groups := i.groups ++ other.groups }

/-- The instance as it is written. -/
def text (i : Instance) : Text :=
  Text.joined " plus ".toList
    (i.groups.map fun g => if i.shortLabel then g.magnitude else g.text)

/-- Adds a number, taken negative for a subtraction. A lone term takes it in, whatever
its tags; otherwise it is merged as a constant without tags. -/
def shift (op : Formula.Operator) (n : Amount) (i : Instance) : Except EvalError Instance :=
  match i.groups with
  | [⟨[term], tags⟩] => (term.apply op n).map fun t => { i with groups := [⟨[t], tags⟩] }
  | groups => do
    let n ← if op = .sub then EvalError.orOverflow (Amount.neg? n) else .ok n
    let groups ← mergeGroup (.ofTerm (.constant n)) groups
    return { i with groups }

/-- Multiplies or divides every term. -/
def rescale (op : Formula.Operator) (n : Amount) (i : Instance) : Attempt Instance Unit :=
  let change (t : Term) := Attempt.ofExcept t (t.apply op n)
  let attempt := Attempt.each (fun g : Group =>
    let terms := Attempt.each change g.terms
    ⟨terms.result, { g with terms := terms.state }⟩) i.groups
  ⟨attempt.result, { i with groups := attempt.state }⟩

/-- The instance combined with a number on its right. Dice are multiplied and
divided by positive numbers only. When a term overflows, those before it have
been changed. -/
def apply (op : Formula.Operator) (n : Amount) (i : Instance) : Attempt Instance Unit :=
  match op with
  | .add | .sub => Attempt.ofExcept i (i.shift op n)
  | .mul | .div =>
    if op = .div ∧ n = 0 then ⟨.error .divisionByZero, i⟩
    else if n.toInt < 1 ∧ i.terms.any Term.isDice then
      ⟨.error (.invalidOperands op ("damage ".toList ++ i.text)
        ("number ".toList ++ Text.ofInt n.toInt)), i⟩
    else i.rescale op n

/-- The sum of the averages of the groups. -/
def average (i : Instance) : Amount :=
  Amount.sum (i.groups.map Group.average)

/-- The sum of all terms with their dice rolled, one term after the other. -/
def roll {σ : Type} (roller : Roller σ) (i : Instance) : StateM σ Amount := do
  return Amount.sum (← i.terms.mapM (Term.roll roller))

end Instance

end RuleText.Damage
