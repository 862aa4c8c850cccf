/-
The grammar as it is usually written down, with repetition and without trees:

    line   := expr EOF
    expr   := term (("+" | "-") term)*
    term   := factor (("*" | "/") factor)*
    factor := INTEGER | "(" expr ")"

`derives_iff_spells`: tokens derive from it exactly if they spell a tree, wherever they stand.
`Spells.unique`: they spell no more than one. What makes it so is that the operator at the root
is the last one outside of all parentheses that binds loosest.
-/
import LineCalc.Grammar

namespace LineCalc

/-- The tokens derive from this sort of phrase, and none of them stands inside more than `depth`
parentheses of it. -/
inductive Derives : Phrase → (depth : Nat) → List Token → Prop
  | integer {depth : Nat} {value : Word} : Derives .factor depth [.integer value]
  | group {depth : Nat} {tokens : List Token} :
    Derives .expr depth tokens → Derives .factor (depth + 1) (.lparen :: tokens ++ [.rparen])
  | term {depth : Nat} {first : List Token} {more : List (Token × List Token)} :
    Derives .factor depth first → (∀ part ∈ more, part.1 = .mul ∨ part.1 = .div) →
    (∀ part ∈ more, Derives .factor depth part.2) →
    Derives .term depth (first ++ more.flatMap fun part => part.1 :: part.2)
  | expr {depth : Nat} {first : List Token} {more : List (Token × List Token)} :
    Derives .term depth first → (∀ part ∈ more, part.1 = .plus ∨ part.1 = .minus) →
    (∀ part ∈ more, Derives .term depth part.2) →
    Derives .expr depth (first ++ more.flatMap fun part => part.1 :: part.2)

/-- The tokens are one expression and the end of the line, nested no deeper than a line may be. -/
def DerivesLine (tokens : List Token) : Prop :=
  ∃ body, Derives .expr maxNesting body ∧ tokens = body ++ [.endOfInput]

/-! ## Operators and their tokens -/

namespace Operator

theorem ofToken?_multiplicative_iff {token : Token} :
    (∃ op, ofToken? token = some op ∧ op.isMultiplicative) ↔ token = .mul ∨ token = .div := by
  cases token <;> simp [ofToken?, isMultiplicative]

theorem ofToken?_additive_iff {token : Token} :
    (∃ op, ofToken? token = some op ∧ op.isAdditive) ↔ token = .plus ∨ token = .minus := by
  cases token <;> simp [ofToken?, isAdditive]

theorem isAdditive_iff {op : Operator} : op.isAdditive ↔ ¬ op.isMultiplicative := by
  cases op <;> decide

theorem isMultiplicative_of_isAdditive {op : Operator} (h : op.isAdditive) :
    op.isMultiplicative = false := by
  simpa using isAdditive_iff.mp h

end Operator

/-! ## Longer and longer phrases -/

namespace Derives

variable {depth : Nat} {left right : List Token} {token : Token}

theorem of_factor (h : Derives .factor depth left) : Derives .term depth left := by
  simpa using @Derives.term depth left [] h (by simp) (by simp)

theorem of_term (h : Derives .term depth left) : Derives .expr depth left := by
  simpa using @Derives.expr depth left [] h (by simp) (by simp)

theorem product (hleft : Derives .term depth left) (htoken : token = .mul ∨ token = .div)
    (hright : Derives .factor depth right) : Derives .term depth (left ++ token :: right) := by
  cases hleft with
  | @term _ first more hfirst hops hfactors =>
    have h := @Derives.term depth first (more ++ [(token, right)]) hfirst ?_ ?_
    · simpa using h
    · simp only [List.forall_mem_append, List.forall_mem_singleton]
      exact ⟨hops, htoken⟩
    · simp only [List.forall_mem_append, List.forall_mem_singleton]
      exact ⟨hfactors, hright⟩

theorem sum (hleft : Derives .expr depth left) (htoken : token = .plus ∨ token = .minus)
    (hright : Derives .term depth right) : Derives .expr depth (left ++ token :: right) := by
  cases hleft with
  | @expr _ first more hfirst hops hterms =>
    have h := @Derives.expr depth first (more ++ [(token, right)]) hfirst ?_ ?_
    · simpa using h
    · simp only [List.forall_mem_append, List.forall_mem_singleton]
      exact ⟨hops, htoken⟩
    · simp only [List.forall_mem_append, List.forall_mem_singleton]
      exact ⟨hterms, hright⟩

end Derives

/-! ## Derivations and trees -/

theorem Spells.derives {sort : Phrase} {depth : Nat} {tokens : List Placed} {tree : Tree}
    (h : Spells sort depth tokens tree) : Derives sort depth (tokens.map (·.token)) := by
  induction h with
  | number => exact .integer
  | group _ ih => simpa using Derives.group ih
  | factor _ ih => exact ih.of_factor
  | term _ ih => exact ih.of_term
  | product _ hop hmul _ ihLeft ihRight =>
    rw [List.map_append, List.map_cons]
    exact ihLeft.product (Operator.ofToken?_multiplicative_iff.mp ⟨_, hop, hmul⟩) ihRight
  | sum _ hop hadd _ ihLeft ihRight =>
    rw [List.map_append, List.map_cons]
    exact ihLeft.sum (Operator.ofToken?_additive_iff.mp ⟨_, hop, hadd⟩) ihRight

/-- A phrase that takes one more part after an operator takes any number of them. `Whole` is the
phrase, `Part` what stands behind each operator. -/
theorem append_parts (Whole Part : List Placed → Prop) (IsOp : Token → Prop)
    (step : ∀ left right token position, Whole left → IsOp token → Part right →
      Whole (left ++ ⟨token, position⟩ :: right)) :
    ∀ {more : List (Token × List Token)} {left rest : List Placed}, Whole left →
      (∀ part ∈ more, IsOp part.1) →
      (∀ part ∈ more, ∀ placed : List Placed, placed.map (·.token) = part.2 → Part placed) →
      rest.map (·.token) = more.flatMap (fun part => part.1 :: part.2) → Whole (left ++ rest)
  | [], left, rest, hleft, _, _, hrest => by
    obtain rfl : rest = [] := by simpa using hrest
    simpa using hleft
  | (token, part) :: more, left, rest, hleft, hops, hparts, hrest => by
    simp only [List.flatMap_cons, List.cons_append] at hrest
    obtain ⟨⟨_, position⟩, behind, rfl, rfl, hbehind⟩ := List.map_eq_cons_iff.mp hrest
    obtain ⟨right, others, rfl, hright, hothers⟩ := List.map_eq_append_iff.mp hbehind
    have hnext := step left right _ position hleft (hops _ List.mem_cons_self)
      (hparts _ List.mem_cons_self _ hright)
    have := append_parts Whole Part IsOp step hnext (fun p hp => hops p (by simp [hp]))
      (fun p hp => hparts p (by simp [hp])) hothers
    simpa using this

theorem Derives.spells {sort : Phrase} {depth : Nat} {tokens : List Token}
    (h : Derives sort depth tokens) {placed : List Placed} (hplaced : placed.map (·.token) = tokens) :
    ∃ tree, Spells sort depth placed tree := by
  induction h generalizing placed with
  | @integer _ value =>
    obtain ⟨⟨_, position⟩, others, rfl, rfl, hothers⟩ := List.map_eq_cons_iff.mp hplaced
    obtain rfl : others = [] := by simpa using hothers
    exact ⟨_, .number⟩
  | group _ ih =>
    rw [List.cons_append] at hplaced
    obtain ⟨⟨_, first⟩, behind, rfl, rfl, hbehind⟩ := List.map_eq_cons_iff.mp hplaced
    obtain ⟨inner, close, rfl, hinner, hclose⟩ := List.map_eq_append_iff.mp hbehind
    obtain ⟨⟨_, last⟩, others, rfl, rfl, hothers⟩ := List.map_eq_cons_iff.mp hclose
    obtain rfl : others = [] := by simpa using hothers
    obtain ⟨tree, htree⟩ := ih hinner
    exact ⟨tree, .group htree⟩
  | @term depth _ _ _ hops _ ihFirst ihMore =>
    obtain ⟨first, rest, rfl, hfirst, hrest⟩ := List.map_eq_append_iff.mp hplaced
    obtain ⟨a, ha⟩ := ihFirst hfirst
    refine append_parts (fun ts => ∃ tree, Spells .term depth ts tree)
      (fun ts => ∃ tree, Spells .factor depth ts tree) (fun t => t = .mul ∨ t = .div) ?_
      ⟨a, .factor ha⟩ hops (fun part hpart _ h => ihMore part hpart h) hrest
    rintro left right token position ⟨a, ha⟩ hop ⟨b, hb⟩
    obtain ⟨op, hof, hmul⟩ := Operator.ofToken?_multiplicative_iff.mpr hop
    exact ⟨_, .product ha hof hmul hb⟩
  | @expr depth _ _ _ hops _ ihFirst ihMore =>
    obtain ⟨first, rest, rfl, hfirst, hrest⟩ := List.map_eq_append_iff.mp hplaced
    obtain ⟨a, ha⟩ := ihFirst hfirst
    refine append_parts (fun ts => ∃ tree, Spells .expr depth ts tree)
      (fun ts => ∃ tree, Spells .term depth ts tree) (fun t => t = .plus ∨ t = .minus) ?_
      ⟨a, .term ha⟩ hops (fun part hpart _ h => ihMore part hpart h) hrest
    rintro left right token position ⟨a, ha⟩ hop ⟨b, hb⟩
    obtain ⟨op, hof, hadd⟩ := Operator.ofToken?_additive_iff.mpr hop
    exact ⟨_, .sum ha hof hadd hb⟩

/-- **Tokens derive from the grammar exactly if they spell a tree**, wherever they stand. -/
theorem derives_iff_spells {sort : Phrase} {depth : Nat} {placed : List Placed} :
    Derives sort depth (placed.map (·.token)) ↔ ∃ tree, Spells sort depth placed tree :=
  ⟨fun h => h.spells rfl, fun ⟨_, h⟩ => h.derives⟩

/-! ## Parentheses -/

/-- How a token changes the number of open parentheses. -/
def Token.rise : Token → Int
  | .lparen => 1
  | .rparen => -1
  | _ => 0

/-- How many more parentheses these tokens open than close. -/
def rise : List Placed → Int
  | [] => 0
  | t :: tokens => t.token.rise + rise tokens

@[simp] theorem rise_nil : rise [] = 0 := rfl

@[simp] theorem rise_cons (t : Placed) (tokens : List Placed) :
    rise (t :: tokens) = t.token.rise + rise tokens := rfl

@[simp] theorem rise_append (a b : List Placed) : rise (a ++ b) = rise a + rise b := by
  induction a with
  | nil => simp
  | cons t a ih => rw [List.cons_append, rise_cons, rise_cons, ih, Int.add_assoc]

theorem rise_of_ofToken? {token : Token} {op : Operator} (h : Operator.ofToken? token = some op) :
    token.rise = 0 := by
  cases token <;> simp_all [Operator.ofToken?, Token.rise]

/-- Every parenthesis is closed again, and none is closed before it is opened. -/
structure Balanced (tokens : List Placed) : Prop where
  total : rise tokens = 0
  front : ∀ {a b}, tokens = a ++ b → 0 ≤ rise a

namespace Balanced

variable {a b : List Placed}

theorem singleton {t : Placed} (h : t.token.rise = 0) : Balanced [t] := by
  refine ⟨by simp [h], fun heq => ?_⟩
  rcases List.singleton_eq_append_iff.mp heq with ⟨rfl, -⟩ | ⟨rfl, -⟩ <;> simp [h]

theorem append (ha : Balanced a) (hb : Balanced b) : Balanced (a ++ b) := by
  refine ⟨by rw [rise_append, ha.total, hb.total]; rfl, fun heq => ?_⟩
  rcases List.append_eq_append_iff.mp heq with ⟨c, rfl, hc⟩ | ⟨c, hc, -⟩
  · rw [rise_append, ha.total]
    have := hb.front hc
    omega
  · exact ha.front hc

theorem group {first last : Nat} (h : Balanced a) :
    Balanced (⟨.lparen, first⟩ :: a ++ [⟨.rparen, last⟩]) := by
  refine ⟨by simp [h.total, Token.rise], fun {x y} heq => ?_⟩
  cases x with
  | nil => simp
  | cons t x =>
    obtain ⟨rfl, htail⟩ := List.cons.inj heq
    rw [rise_cons]
    rcases List.append_eq_append_iff.mp htail with ⟨c, rfl, hc⟩ | ⟨c, hc, -⟩
    · rw [rise_append, h.total]
      rcases List.singleton_eq_append_iff.mp hc with ⟨rfl, -⟩ | ⟨rfl, -⟩ <;> simp [Token.rise]
    · have := h.front hc
      simp only [Token.rise]
      omega

end Balanced

theorem Spells.balanced {sort : Phrase} {depth : Nat} {tokens : List Placed} {tree : Tree}
    (h : Spells sort depth tokens tree) : Balanced tokens := by
  induction h with
  | number => exact .singleton rfl
  | group _ ih => exact ih.group
  | factor _ ih => exact ih
  | term _ ih => exact ih
  | product _ hop _ _ ihLeft ihRight =>
    exact ihLeft.append ((Balanced.singleton (rise_of_ofToken? hop)).append ihRight)
  | sum _ hop _ _ ihLeft ihRight =>
    exact ihLeft.append ((Balanced.singleton (rise_of_ofToken? hop)).append ihRight)

/-! ## One tree -/

theorem append_cons_cases {α : Type} {a b c d : List α} {x y : α} (h : a ++ x :: b = c ++ y :: d) :
    (∃ m, c = a ++ x :: m ∧ b = m ++ y :: d) ∨ (a = c ∧ x = y ∧ b = d) ∨
      ∃ m, a = c ++ y :: m ∧ d = m ++ x :: b := by
  rcases List.append_eq_append_iff.mp h with ⟨m, rfl, hm⟩ | ⟨m, rfl, hm⟩ <;>
    rcases List.cons_eq_append_iff.mp hm with ⟨rfl, hsame⟩ | ⟨n, rfl, hn⟩
  · obtain ⟨rfl, rfl⟩ := List.cons.inj hsame
    exact .inr (.inl ⟨by simp, rfl, rfl⟩)
  · exact .inl ⟨n, rfl, hn⟩
  · obtain ⟨rfl, rfl⟩ := List.cons.inj hsame
    exact .inr (.inl ⟨by simp, rfl, rfl⟩)
  · exact .inr (.inr ⟨n, rfl, hn⟩)

/-- The operators that may stand outside of all parentheses in a phrase. -/
def Phrase.Exposes : Phrase → Operator → Prop
  | .expr, _ => True
  | .term, op => op.isMultiplicative
  | .factor, _ => False

/-- An operator outside of all parentheses is one of those that the sort of phrase allows. -/
theorem Spells.exposes {sort : Phrase} {depth : Nat} {tokens : List Placed} {tree : Tree}
    (h : Spells sort depth tokens tree) {a b : List Placed} {t : Placed} {op : Operator}
    (heq : tokens = a ++ t :: b) (ha : rise a = 0) (hop : Operator.ofToken? t.token = some op) :
    sort.Exposes op := by
  induction h generalizing a b with
  | number =>
    rcases List.singleton_eq_append_iff.mp heq with ⟨rfl, hb⟩ | ⟨-, hb⟩
    · obtain ⟨rfl, -⟩ := List.cons.inj hb
      cases hop
    · cases hb
  | @group _ _ _ inner _ hs =>
    cases a with
    | nil =>
      obtain ⟨rfl, -⟩ := List.cons.inj heq
      cases hop
    | cons first a =>
      obtain ⟨rfl, htail⟩ := List.cons.inj heq
      rw [rise_cons] at ha
      rcases List.append_eq_append_iff.mp htail with ⟨c, rfl, hc⟩ | ⟨c, hc, -⟩
      · rcases List.singleton_eq_append_iff.mp hc with ⟨rfl, hb⟩ | ⟨-, hb⟩
        · obtain ⟨rfl, -⟩ := List.cons.inj hb
          cases hop
        · cases hb
      · have := hs.balanced.front hc
        simp only [Token.rise] at ha
        omega
  | factor _ ih => exact (ih heq ha).elim
  | term _ _ => trivial
  | product hs hof hmul _ ihLeft ihRight =>
    rcases append_cons_cases heq with ⟨c, rfl, hc⟩ | ⟨-, rfl, -⟩ | ⟨c, hc, -⟩
    · rw [rise_append, rise_cons, hs.balanced.total, rise_of_ofToken? hof] at ha
      exact (ihRight hc (by omega)).elim
    · obtain rfl := Option.some.inj (hof.symm.trans hop)
      exact hmul
    · exact ihLeft hc ha
  | sum _ _ _ _ _ _ => trivial

/-- The operator at the root is the last of those that may stand there, and so is its place. -/
theorem split_unique {left right left' right' : List Placed} {t t' : Placed} {sort sort' : Phrase}
    {depth depth' : Nat} {tree tree' : Tree} {op op' : Operator}
    (heq : left ++ t :: right = left' ++ t' :: right') (hleft : rise left = 0) (hleft' : rise left' = 0)
    (hop : Operator.ofToken? t.token = some op) (hop' : Operator.ofToken? t'.token = some op')
    (hright : Spells sort depth right tree) (hright' : Spells sort' depth' right' tree')
    (hno : ¬ sort.Exposes op') (hno' : ¬ sort'.Exposes op) : left = left' ∧ t = t' ∧ right = right' := by
  rcases append_cons_cases heq with ⟨c, rfl, hc⟩ | h | ⟨c, rfl, hc⟩
  · rw [rise_append, rise_cons, hleft, rise_of_ofToken? hop] at hleft'
    exact absurd (hright.exposes hc (by omega) hop') hno
  · exact h
  · rw [rise_append, rise_cons, hleft', rise_of_ofToken? hop'] at hleft
    exact absurd (hright'.exposes hc (by omega) hop) hno'

theorem not_exposes_term {op : Operator} (h : op.isAdditive) : ¬ Phrase.term.Exposes op :=
  Operator.isAdditive_iff.mp h

/-- **Tokens spell at most one tree.** -/
theorem Spells.unique {sort : Phrase} {depth depth' : Nat} {tokens tokens' : List Placed}
    {tree tree' : Tree} (h : Spells sort depth tokens tree) (h' : Spells sort depth' tokens' tree')
    (heq : tokens = tokens') : tree = tree' := by
  induction h generalizing depth' tokens' tree' with
  | number =>
    cases h' with
    | number => simp_all
    | group _ => simp at heq
  | group _ ih =>
    cases h' with
    | number => simp at heq
    | group hs' =>
      obtain ⟨-, htail⟩ := List.cons.inj heq
      exact ih hs' (List.append_inj_left' htail rfl)
  | factor hs ih =>
    cases h' with
    | factor hs' => exact ih hs' heq
    | product hl' hop' _ _ => exact (hs.exposes heq hl'.balanced.total hop').elim
  | product hl hop _ hr ihLeft ihRight =>
    cases h' with
    | factor hs' => exact (hs'.exposes heq.symm hl.balanced.total hop).elim
    | product hl' hop' _ hr' =>
      obtain ⟨hleft, hmark, hright⟩ :=
        split_unique heq hl.balanced.total hl'.balanced.total hop hop' hr hr' id id
      obtain ⟨rfl, rfl⟩ := Placed.mk.inj hmark
      obtain rfl := Option.some.inj (hop.symm.trans hop')
      rw [ihLeft hl' hleft, ihRight hr' hright]
  | term hs ih =>
    cases h' with
    | term hs' => exact ih hs' heq
    | sum hl' hop' hadd' _ =>
      exact absurd (hs.exposes heq hl'.balanced.total hop') (not_exposes_term hadd')
  | sum hl hop hadd hr ihLeft ihRight =>
    cases h' with
    | term hs' => exact absurd (hs'.exposes heq.symm hl.balanced.total hop) (not_exposes_term hadd)
    | sum hl' hop' hadd' hr' =>
      obtain ⟨hleft, hmark, hright⟩ := split_unique heq hl.balanced.total hl'.balanced.total hop hop'
        hr hr' (not_exposes_term hadd') (not_exposes_term hadd)
      obtain ⟨rfl, rfl⟩ := Placed.mk.inj hmark
      obtain rfl := Option.some.inj (hop.symm.trans hop')
      rw [ihLeft hl' hleft, ihRight hr' hright]

end LineCalc
