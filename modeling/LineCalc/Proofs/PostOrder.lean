/-
What a tree is worth, said of its nodes: each node has an exact value in the integers, unless
something is divided by zero in it, and a node is at fault if its divisor is zero or its exact
value is out of range. `value_eq_ok_iff` and `value_eq_error_iff`: working a tree out gives its
exact value if no node is at fault, and otherwise the fault of the first such node in post-order
(left operand, right operand, the node itself).
-/
import LineCalc.Tree

namespace LineCalc

theorem Operator.toInt_apply (op : Operator) (left right : Word) (position : Nat) :
    (op.apply left right position).map Int64.toInt =
      match op.result? left.toInt right.toInt with
      | none => .error (.divisionByZero position)
      | some result => if Word.InRange result then .ok result else .error (.overflow position) := by
  unfold apply
  cases op.result? left.toInt right.toInt with
  | none => rfl
  | some result =>
    dsimp only
    cases h : Word.ofInt? result with
    | none =>
      rw [if_neg (Word.ofInt?_eq_none_iff.mp h)]
      rfl
    | some word =>
      have hword := Word.ofInt?_eq_some_iff.mp h
      rw [if_pos (hword ▸ word.inRange_toInt), ← hword]
      rfl

namespace Tree

/-- A tree worked out in words, as a machine does. -/
def word : Tree → Except ArithmeticError Word
  | number value => .ok value
  | node operator position left right => do
    operator.apply (← left.word) (← right.word) position

theorem value_node {operator : Operator} {position : Nat} {left right : Tree} {a b : Int}
    (ha : left.value = .ok a) (hb : right.value = .ok b) :
    (node operator position left right).value =
      match operator.result? a b with
      | none => .error (.divisionByZero position)
      | some result => if Word.InRange result then .ok result else .error (.overflow position) := by
  rw [value, ha, hb]
  rfl

/-- In words or in integers, it is worth the same. -/
theorem value_eq_word (tree : Tree) : tree.value = tree.word.map Int64.toInt := by
  induction tree with
  | number value => rfl
  | node operator position left right ihLeft ihRight =>
    rw [value, word, ihLeft, ihRight]
    cases left.word with
    | error error => rfl
    | ok a =>
      cases right.word with
      | error error => rfl
      | ok b => exact (operator.toInt_apply a b position).symm

theorem word_eq_ok_iff {tree : Tree} {value : Word} :
    tree.word = .ok value ↔ tree.value = .ok value.toInt := by
  rw [value_eq_word]
  cases tree.word with
  | error error => simp [Except.map]
  | ok word => simp [Except.map, Int64.toInt_inj]

theorem word_eq_error_iff {tree : Tree} {error : ArithmeticError} :
    tree.word = .error error ↔ tree.value = .error error := by
  rw [value_eq_word]
  cases tree.word <;> simp [Except.map]

/-! ## Nodes and their faults -/

/-- A tree with all the trees in it, operands first and left before right. -/
def postOrder : Tree → List Tree
  | number value => [number value]
  | node operator position left right =>
    left.postOrder ++ right.postOrder ++ [node operator position left right]

/-- The exact value in the integers, however large; none if something is divided by zero. -/
def exactValue? : Tree → Option Int
  | number value => some value.toInt
  | node operator _ left right => do operator.result? (← left.exactValue?) (← right.exactValue?)

/-- What is wrong with the operation at the root, its operands apart. -/
def fault? : Tree → Option ArithmeticError
  | number _ => none
  | node operator position left right =>
    if operator = .div ∧ right.exactValue? = some 0 then some (.divisionByZero position)
    else
      match (node operator position left right).exactValue? with
      | none => none
      | some result => if Word.InRange result then none else some (.overflow position)

/-- The first fault in post-order. -/
def firstFault? (tree : Tree) : Option ArithmeticError := tree.postOrder.findSome? fault?

theorem firstFault?_node (operator : Operator) (position : Nat) (left right : Tree) :
    (node operator position left right).firstFault? =
      (left.firstFault?.or right.firstFault?).or (node operator position left right).fault? := by
  simp [firstFault?, postOrder, List.findSome?_append, Option.or_assoc]

end Tree

theorem Operator.result?_eq_none_iff {op : Operator} {a b : Int} :
    op.result? a b = none ↔ op = .div ∧ b = 0 := by
  cases op <;> simp [result?]

namespace Tree

theorem fault?_node {operator : Operator} {position : Nat} {left right : Tree} {a b : Int}
    (ha : left.exactValue? = some a) (hb : right.exactValue? = some b) :
    (node operator position left right).fault? =
      match operator.result? a b with
      | none => some (.divisionByZero position)
      | some result => if Word.InRange result then none else some (.overflow position) := by
  have hexact : (node operator position left right).exactValue? = operator.result? a b := by
    simp [exactValue?, ha, hb]
  rw [fault?, hexact, hb]
  cases h : operator.result? a b with
  | none => simp [(Operator.result?_eq_none_iff.mp h).1, (Operator.result?_eq_none_iff.mp h).2]
  | some result =>
    have hno : ¬ (operator = .div ∧ some b = some 0) := by
      rintro ⟨hop, hzero⟩
      rw [Operator.result?_eq_none_iff.mpr ⟨hop, Option.some.inj hzero⟩] at h
      cases h
    rw [if_neg hno]

/-- A tree that was worked out has that exact value and no fault; one that was not has the first
fault that was met. -/
theorem value_cases (tree : Tree) :
    (∃ result, tree.value = .ok result ∧ tree.exactValue? = some result ∧ tree.firstFault? = none) ∨
      ∃ error, tree.value = .error error ∧ tree.firstFault? = some error := by
  induction tree with
  | number value => exact .inl ⟨_, rfl, rfl, rfl⟩
  | node operator position left right ihLeft ihRight =>
    rw [firstFault?_node]
    rcases ihLeft with ⟨a, hva, ha, hfa⟩ | ⟨error, hva, hfa⟩
    · rcases ihRight with ⟨b, hvb, hb, hfb⟩ | ⟨error, hvb, hfb⟩
      · rw [value_node hva hvb, hfa, hfb, fault?_node ha hb]
        have hexact : (node operator position left right).exactValue? = operator.result? a b := by
          simp [exactValue?, ha, hb]
        rw [hexact]
        cases operator.result? a b with
        | none => exact .inr ⟨_, rfl, rfl⟩
        | some result =>
          by_cases hr : Word.InRange result
          · exact .inl ⟨result, by simp [hr], rfl, by simp [hr]⟩
          · exact .inr ⟨.overflow position, by simp [hr], by simp [hr]⟩
      · rw [value, hva, hvb, hfa, hfb]
        exact .inr ⟨error, rfl, rfl⟩
    · rw [value, hva, hfa]
      exact .inr ⟨error, rfl, rfl⟩

theorem value_eq_ok_iff {tree : Tree} {result : Int} :
    tree.value = .ok result ↔ tree.exactValue? = some result ∧ tree.firstFault? = none := by
  rcases tree.value_cases with ⟨v, hv, he, hf⟩ | ⟨error, hv, hf⟩
  · simp [hv, he, hf]
  · simp [hv, hf]

theorem value_eq_error_iff {tree : Tree} {error : ArithmeticError} :
    tree.value = .error error ↔ tree.firstFault? = some error := by
  rcases tree.value_cases with ⟨v, hv, he, hf⟩ | ⟨error, hv, hf⟩
  · simp [hv, hf]
  · simp [hv, hf]

end Tree

end LineCalc
