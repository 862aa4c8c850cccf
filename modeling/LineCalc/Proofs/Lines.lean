/-
The lines of an input, said without walking over its bytes: the pieces between line feeds, where each
but the last loses a carriage return at its end, and the last is a line only if there is something in
it (`Input.lines_eq_splitLines`).

Bytes that are empty or end in a line feed are cut on their own, whatever follows them
(`Input.cut_append`). So a reader that fails gets all lines of the longest such part of the input, and
nothing else (`Input.lines_of_fault`).
-/
import LineCalc.Session.Input
import Mathlib.Data.List.Forall2

namespace LineCalc.Input

/-! ## Pieces between line feeds -/

theorem cut_feed (bytes : Bytes) : cut (0x0A :: bytes) = ([] :: (cut bytes).1, (cut bytes).2) := by
  rw [cut]
  rfl

theorem cut_of_ne {b : UInt8} (h : b ≠ 0x0A) (bytes : Bytes) :
    cut (b :: bytes) =
      match (cut bytes).1 with
      | [] => ([], b :: (cut bytes).2)
      | line :: lines => ((b :: line) :: lines, (cut bytes).2) := by
  rw [cut]
  generalize cut bytes = pieces
  exact if_neg h

theorem splitOn_eq_cut (bytes : Bytes) : bytes.splitOn 0x0A = (cut bytes).1 ++ [(cut bytes).2] := by
  induction bytes with
  | nil => rfl
  | cons b bytes ih =>
    rw [List.splitOn_cons_eq_if_modifyHead, ih]
    by_cases h : b = 0x0A
    · subst h
      simp [cut_feed]
    · rw [cut_of_ne h]
      cases (cut bytes).1 <;> simp [h]

/-- The lines of bytes that end plainly. -/
def splitLines (bytes : Bytes) : List Bytes :=
  let pieces := bytes.splitOn 0x0A
  pieces.dropLast.map dropReturn ++ pieces.getLast?.toList.filter (· ≠ [])

theorem lines_eq_splitLines (bytes : Bytes) : (ofBytes bytes).lines = splitLines bytes := by
  have hlines : (ofBytes bytes).lines =
      (cut bytes).1.map dropReturn ++ if (cut bytes).2 ≠ [] then [(cut bytes).2] else [] := by
    simp [lines, ofBytes]
  rw [hlines, splitLines, splitOn_eq_cut]
  by_cases h : (cut bytes).2 = [] <;> simp [h]

/-! ## Whole lines in front -/

/-- Nothing, or bytes up to a line feed. -/
def Terminated (bytes : Bytes) : Prop := bytes = [] ∨ bytes.getLast? = some 0x0A

theorem Terminated.tail {b : UInt8} {bytes : Bytes} (h : Terminated (b :: bytes)) :
    Terminated bytes := by
  cases bytes with
  | nil => exact .inl rfl
  | cons c bytes => exact .inr (by simpa [Terminated] using h)

theorem cut_snd_of_fst_eq_nil {bytes : Bytes} (h : (cut bytes).1 = []) : (cut bytes).2 = bytes := by
  induction bytes with
  | nil => rfl
  | cons b bytes ih =>
    by_cases hb : b = 0x0A
    · subst hb
      simp [cut_feed] at h
    · rw [cut_of_ne hb] at h ⊢
      cases hlines : (cut bytes).1 with
      | nil => simp only [ih hlines]
      | cons line lines => simp [hlines] at h

/-- Nothing is left of terminated bytes, and what follows them is cut apart from them. -/
theorem cut_append {a : Bytes} (h : Terminated a) (b : Bytes) :
    (cut a).2 = [] ∧ cut (a ++ b) = ((cut a).1 ++ (cut b).1, (cut b).2) := by
  induction a with
  | nil => exact ⟨rfl, rfl⟩
  | cons x a ih =>
    obtain ⟨hleft, hcut⟩ := ih h.tail
    rw [List.cons_append]
    by_cases hx : x = 0x0A
    · subst hx
      simp [cut_feed, hleft, hcut]
    · -- The line that `x` belongs to ends in `a`.
      have hne : (cut a).1 ≠ [] := by
        intro hnone
        have ha : a = [] := (cut_snd_of_fst_eq_nil hnone).symm.trans hleft
        subst ha
        simp [Terminated, hx] at h
      obtain ⟨line, lines, hlines⟩ := List.exists_cons_of_ne_nil hne
      rw [cut_of_ne hx, cut_of_ne hx, hcut, hlines]
      exact ⟨hleft, rfl⟩

theorem cut_of_not_mem {bytes : Bytes} (h : 0x0A ∉ bytes) : cut bytes = ([], bytes) := by
  induction bytes with
  | nil => rfl
  | cons b bytes ih =>
    obtain ⟨hb, hbytes⟩ := not_or.mp (mt List.mem_cons.mpr h)
    rw [cut_of_ne (fun heq => hb heq.symm), ih hbytes]

theorem cut_line {line : Bytes} (h : 0x0A ∉ line) (rest : Bytes) :
    cut (line ++ 0x0A :: rest) = (line :: (cut rest).1, (cut rest).2) := by
  induction line with
  | nil => exact cut_feed rest
  | cons b line ih =>
    obtain ⟨hb, hline⟩ := not_or.mp (mt List.mem_cons.mpr h)
    rw [List.cons_append, cut_of_ne (fun heq => hb heq.symm), ih hline]

/-- What is put together from whole lines is cut into these lines. -/
theorem cut_flatMap {α β : Type} {related : α → β → Prop} {bytes : α → Bytes} {line : β → Bytes}
    {xs : List α} (h : ∀ x ∈ xs, ∃ y, related x y ∧ bytes x = line y ++ [0x0A] ∧ 0x0A ∉ line y) :
    ∃ ys, List.Forall₂ related xs ys ∧ cut (xs.flatMap bytes) = (ys.map line, []) := by
  induction xs with
  | nil => exact ⟨[], .nil, rfl⟩
  | cons x xs ih =>
    obtain ⟨⟨y, hrelated, hbytes, hfeed⟩, hxs⟩ := List.forall_mem_cons.mp h
    obtain ⟨ys, hall, hcut⟩ := ih hxs
    refine ⟨y :: ys, .cons hrelated hall, ?_⟩
    rw [List.flatMap_cons, hbytes, List.append_assoc, List.singleton_append, cut_line hfeed, hcut]
    rfl

/-- `whole` is the longest part of the bytes, from the start on, that is empty or ends in a line feed. -/
structure IsWhole (whole bytes : Bytes) : Prop where
  front : whole <+: bytes
  terminated : Terminated whole
  longest : ∀ other, other <+: bytes → Terminated other → other.length ≤ whole.length

theorem exists_terminated (bytes : Bytes) :
    ∃ whole left, bytes = whole ++ left ∧ Terminated whole ∧ 0x0A ∉ left := by
  induction bytes with
  | nil => exact ⟨[], [], rfl, .inl rfl, by simp⟩
  | cons b bytes ih =>
    obtain ⟨whole, left, rfl, hwhole, hleft⟩ := ih
    cases whole with
    | cons c whole => exact ⟨b :: c :: whole, left, rfl, .inr (by simpa [Terminated] using hwhole), hleft⟩
    | nil =>
      by_cases hb : b = 0x0A
      · exact ⟨[b], left, rfl, .inr (by simp [hb]), hleft⟩
      · exact ⟨[], b :: left, rfl, .inl rfl, by simp [hleft, Ne.symm hb]⟩

theorem exists_isWhole (bytes : Bytes) :
    ∃ whole left, bytes = whole ++ left ∧ IsWhole whole bytes ∧ 0x0A ∉ left := by
  obtain ⟨whole, left, rfl, hwhole, hleft⟩ := exists_terminated bytes
  refine ⟨whole, left, rfl, ⟨List.prefix_append _ _, hwhole, fun other hother hterminated => ?_⟩, hleft⟩
  rcases List.prefix_or_prefix_of_prefix hother (List.prefix_append whole left) with hle | ⟨more, rfl⟩
  · exact hle.length_le
  -- What goes beyond `whole` ends in a line feed, and is part of what is left.
  by_cases hmore : more = []
  · simp [hmore]
  · have hlast : more.getLast? = some 0x0A := by
      rcases hterminated with hnil | hlast
      · simp [hmore] at hnil
      · simpa [List.getLast?_append, List.getLast?_eq_some_getLast hmore] using hlast
    have hpart : more <+: left := (List.prefix_append_right_inj whole).mp hother
    exact absurd (hpart.subset (List.mem_of_getLast? hlast)) hleft

/-- A reader that fails gets the lines of the longest part that is terminated, and these are the first
of all lines. -/
theorem lines_of_fault (bytes : Bytes) (fault : Fault) :
    ∃ whole rest, IsWhole whole bytes ∧ Input.lines ⟨bytes, some fault⟩ = (ofBytes whole).lines ∧
      (ofBytes bytes).lines = (ofBytes whole).lines ++ rest := by
  obtain ⟨whole, left, rfl, hwhole, hleft⟩ := exists_isWhole bytes
  obtain ⟨hnone, hcut⟩ := cut_append hwhole.terminated left
  rw [cut_of_not_mem hleft] at hcut
  refine ⟨whole, if left ≠ [] then [left] else [], hwhole, ?_, ?_⟩
  · simp [lines, ofBytes, hcut, hnone]
  · simp [lines, ofBytes, hcut, hnone]

end LineCalc.Input
