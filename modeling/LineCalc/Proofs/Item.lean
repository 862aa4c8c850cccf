/-
The items of a line, said without a lexer: each maximal run of digits is one item, and so is
every other character, except that spaces only separate. An item is a token or a fault on its
own, whatever stands around it; its place is the number of bytes before it.

`cut_append`: where no digit run crosses, the items of two texts side by side are the items of
the one and then those of the other. This and the items of the shortest texts (a space, a sign,
one digit run) are all that is ever used of the cutting.
-/
import LineCalc.Scan
import Mathlib.Data.List.SplitBy

namespace LineCalc

/-- The bytes that a text takes. -/
def byteSize (text : List Char) : Nat := (String.ofList text).utf8ByteSize

@[simp] theorem byteSize_nil : byteSize [] = 0 := by simp [byteSize]

@[simp] theorem byteSize_append (a b : List Char) : byteSize (a ++ b) = byteSize a + byteSize b := by
  simp [byteSize, String.ofList_append, String.utf8ByteSize_append]

@[simp] theorem byteSize_singleton (c : Char) : byteSize [c] = c.utf8Size := by
  rw [byteSize, ← String.singleton_eq_ofList, String.utf8ByteSize_singleton]

theorem byteSize_cons (c : Char) (cs : List Char) : byteSize (c :: cs) = c.utf8Size + byteSize cs := by
  rw [← List.singleton_append, byteSize_append, byteSize_singleton]

theorem byteSize_toList (line : String) : byteSize line.toList = line.utf8ByteSize := by
  rw [byteSize, String.ofList_toList]

theorem eq_ofList_append {line : String} {front rest : List Char} (h : line.toList = front ++ rest) :
    line = String.ofList front ++ String.ofList rest := by
  rw [← String.ofList_append, ← h, String.ofList_toList]

theorem byteSize_pos {text : List Char} (h : text ≠ []) : 0 < byteSize text := by
  cases text with
  | nil => exact absurd rfl h
  | cons c cs =>
    rw [byteSize_cons]
    have := c.utf8Size_pos
    omega

theorem byteSize_of_ascii {text : List Char} (h : ∀ c ∈ text, c.utf8Size = 1) :
    byteSize text = text.length := by
  induction text with
  | nil => rfl
  | cons c cs ih =>
    rw [byteSize_cons, ih fun d hd => h d (by simp [hd]), h c (by simp), List.length_cons]
    omega

/-- A piece of a line that is a token on its own, or nothing. -/
structure Item where
  text : List Char
  /-- The byte offset at which it starts. -/
  position : Nat
  deriving DecidableEq, Repr

namespace Item

/-! ## Cutting a text into items -/

/-- Two neighbours that are part of one digit run. -/
def inOneRun (a b : Char) : Bool := a.isDigit && b.isDigit

/-- Texts one after the other, the first of them at `offset`. -/
def place : Nat → List (List Char) → List Item
  | _, [] => []
  | offset, text :: texts => ⟨text, offset⟩ :: place (offset + byteSize text) texts

/-- The items of a text that starts at `offset`: whole digit runs and other characters, in order,
without the spaces. -/
def cut (offset : Nat) (text : List Char) : List Item :=
  (place offset (text.splitBy inOneRun)).filter (·.text ≠ [' '])

/-- The items of a line. -/
def ofLine (line : String) : List Item := cut 0 line.toList

/-! ## What an item is -/

/-- The tokens that are written with one character each. -/
def signs : List Token := [.plus, .minus, .mul, .div, .lparen, .rparen]

/-- The token that an item is, if it is one: a number that is not too large, or a sign. -/
def token? (item : Item) : Option Token :=
  if item.text.all Char.isDigit then
    let value := Decimal.value item.text
    if value ≤ 9223372036854775807 then some (.integer (Int64.ofNat value)) else none
  else signs.find? (·.symbol.toList = item.text)

/-- What is wrong with an item that is no token. A single digit is never too large, and only a number
can be longer than one character. -/
def fault (item : Item) : LexError :=
  match item.text with
  | [c] => .unknownCharacter c item.position
  | run => .literalTooLarge (String.ofList run) item.position

/-- An item as a token, or as a fault. -/
def read (item : Item) : Except LexError Token :=
  match item.token? with
  | some token => .ok token
  | none => .error item.fault

/-! ## The items of a text, piece by piece -/

theorem place_append (offset : Nat) (as bs : List (List Char)) :
    place offset (as ++ bs) = place offset as ++ place (offset + byteSize as.flatten) bs := by
  induction as generalizing offset with
  | nil => simp [place]
  | cons a as ih => simp [place, ih, Nat.add_assoc]

/-- No digit run goes from the one text into the other. -/
def Apart (a b : List Char) : Prop := ∀ x ∈ a.getLast?, ∀ y ∈ b.head?, inOneRun x y = false

theorem cut_append (offset : Nat) {a b : List Char} (h : Apart a b) :
    cut offset (a ++ b) = cut offset a ++ cut (offset + byteSize a) b := by
  simp only [cut]
  rw [List.splitBy_append h, place_append, List.filter_append, List.flatten_splitBy]

@[simp] theorem cut_nil (offset : Nat) : cut offset [] = [] := rfl

theorem inOneRun_left {a : Char} (h : a.isDigit = false) (b : Char) : inOneRun a b = false := by
  simp [inOneRun, h]

theorem inOneRun_right {b : Char} (h : b.isDigit = false) (a : Char) : inOneRun a b = false := by
  simp [inOneRun, h]

theorem apart_of_head? {b : List Char} (h : ∀ c ∈ b.head?, c.isDigit = false) (a : List Char) :
    Apart a b :=
  fun x _ y hy => inOneRun_right (h y hy) x

theorem apart_singleton {c : Char} (h : c.isDigit = false) (b : List Char) : Apart [c] b := by
  intro x hx y _
  obtain rfl : c = x := by simpa using hx
  exact inOneRun_left h y

theorem Apart.append {a b c : List Char} (hac : b = [] → Apart a c) (hbc : Apart b c) :
    Apart (a ++ b) c := by
  intro x hx y hy
  cases b with
  | nil => exact hac rfl x (by simpa using hx) y hy
  | cons d b =>
    refine hbc x ?_ y hy
    rwa [List.getLast?_append_of_ne_nil _ (by simp)] at hx

theorem cut_cons_of_not_digit (offset : Nat) {c : Char} (h : c.isDigit = false) (cs : List Char) :
    cut offset (c :: cs) = cut offset [c] ++ cut (offset + c.utf8Size) cs := by
  simpa using cut_append offset (apart_singleton h cs)

theorem cut_blank (offset : Nat) (cs : List Char) : cut offset (' ' :: cs) = cut (offset + 1) cs := by
  rw [cut_cons_of_not_digit offset (by decide)]
  rfl

theorem cut_blanks_append {blanks : List Char} (h : ∀ c ∈ blanks, c = ' ') (offset : Nat)
    (text : List Char) : cut offset (blanks ++ text) = cut (offset + byteSize blanks) text := by
  induction blanks generalizing offset with
  | nil => simp
  | cons c blanks ih =>
    obtain rfl : c = ' ' := h c List.mem_cons_self
    have hsize : byteSize (' ' :: blanks) = 1 + byteSize blanks := byteSize_cons ' ' blanks
    rw [List.cons_append, cut_blank, ih (fun c hc => h c (List.mem_cons_of_mem _ hc)), hsize, Nat.add_assoc]

/-- `first` is an item in front of `rest`: a character that is neither a space nor a digit, or a
digit run that `rest` does not go on with. -/
inductive Leads : (first rest : List Char) → Prop
  | char {c : Char} {rest : List Char} (notBlank : c ≠ ' ') (notDigit : c.isDigit = false) :
    Leads [c] rest
  | run {run rest : List Char} (ne : run ≠ []) (digits : ∀ c ∈ run, c.isDigit)
      (ends : ∀ c ∈ rest.head?, c.isDigit = false) :
    Leads run rest

theorem takeWhile_isDigit {run rest : List Char} (digits : ∀ c ∈ run, c.isDigit)
    (ends : ∀ c ∈ rest.head?, c.isDigit = false) : (run ++ rest).takeWhile Char.isDigit = run := by
  rw [List.takeWhile_append_of_pos digits]
  cases rest with
  | nil => simp
  | cons c rest => simp [ends c rfl]

theorem dropWhile_isDigit {run rest : List Char} (digits : ∀ c ∈ run, c.isDigit)
    (ends : ∀ c ∈ rest.head?, c.isDigit = false) : (run ++ rest).dropWhile Char.isDigit = rest := by
  rw [List.dropWhile_append_of_pos digits]
  cases rest with
  | nil => rfl
  | cons c rest => simp [ends c rfl]

theorem Leads.ne_nil {first rest : List Char} (h : Leads first rest) : first ≠ [] := by
  cases h with
  | char _ _ => simp
  | run ne _ _ => exact ne

theorem Leads.left {first a b : List Char} (h : Leads first (a ++ b)) : Leads first a := by
  cases h with
  | char notBlank notDigit => exact .char notBlank notDigit
  | run ne digits ends =>
    refine .run ne digits fun c hc => ends c ?_
    rw [List.head?_append, Option.mem_def.mp hc]
    rfl

/-- An item ends where what follows it starts. -/
theorem Leads.apart {first rest : List Char} (h : Leads first rest) : Apart first rest := by
  cases h with
  | char _ notDigit => exact apart_singleton notDigit rest
  | run _ _ ends => exact apart_of_head? ends first

theorem Leads.cut_eq {first rest : List Char} (h : Leads first rest) (offset : Nat) :
    cut offset (first ++ rest) = ⟨first, offset⟩ :: cut (offset + byteSize first) rest := by
  have hone : cut offset first = [⟨first, offset⟩] := by
    cases h with
    | char notBlank _ => simp [cut, List.splitBy, List.splitBy.loop, place, notBlank]
    | run ne digits _ =>
      have hchain : first.IsChain fun x y => inOneRun x y := by
        refine List.Pairwise.isChain (List.pairwise_of_forall_mem_list fun x hx y hy => ?_)
        simp [inOneRun, digits x hx, digits y hy]
      have hblank : first ≠ [' '] := by
        rintro rfl
        exact absurd (digits ' ' (by simp)) (by decide)
      simp [cut, List.splitBy_of_isChain ne hchain, place, hblank]
  rw [cut_append offset h.apart, hone, List.singleton_append]

/-- A text that does not start with a space starts with an item. -/
theorem exists_leads {c : Char} (notBlank : c ≠ ' ') (cs : List Char) :
    ∃ first rest, c :: cs = first ++ rest ∧ Leads first rest := by
  by_cases hd : c.isDigit
  · refine ⟨c :: cs.takeWhile Char.isDigit, cs.dropWhile Char.isDigit, by simp, ?_⟩
    refine .run (by simp) (fun d hm => ?_) fun d hm => ?_
    · rcases List.mem_cons.mp hm with rfl | hm
      · exact hd
      · exact List.all_eq_true.mp List.all_takeWhile d hm
    · have := List.head?_dropWhile_not Char.isDigit cs
      rw [Option.mem_def.mp hm] at this
      simpa using this
  · exact ⟨[c], cs, rfl, .char notBlank (by simpa using hd)⟩

/-- To prove something of every text, follow its items from the left. -/
theorem text_induction {motive : List Char → Prop} (nil : motive [])
    (blank : ∀ cs, motive cs → motive (' ' :: cs))
    (item : ∀ first rest, Leads first rest → motive rest → motive (first ++ rest)) :
    ∀ text, motive text
  | [] => nil
  | c :: cs => by
    by_cases hb : c = ' '
    · rw [hb]
      exact blank cs (text_induction nil blank item cs)
    · obtain ⟨first, rest, htext, hl⟩ := exists_leads hb cs
      have hshorter : rest.length < (c :: cs).length := by
        have := List.length_pos_iff.mpr hl.ne_nil
        rw [htext, List.length_append]
        omega
      rw [htext]
      exact item first rest hl (text_induction nil blank item rest)
termination_by text => text.length
decreasing_by
  · exact Nat.lt_succ_self _
  · exact hshorter

/-! ## Where items stand -/

/-- The items of a text end where a new one starts, and in front of it the text can be divided. -/
theorem exists_divided {text : List Char} : ∀ {offset : Nat} {before after : List Item} {item : Item},
    cut offset text = before ++ item :: after →
    ∃ front rest, text = front ++ (item.text ++ rest) ∧ cut offset front = before ∧
      item.position = offset + byteSize front ∧ Leads item.text rest ∧
      Apart front (item.text ++ rest) := by
  induction text using text_induction with
  | nil => simp
  | blank cs ih =>
    intro offset before after item h
    rw [cut_blank] at h
    obtain ⟨front, rest, rfl, hfront, hposition, hleads, hapart⟩ := ih h
    refine ⟨' ' :: front, rest, rfl, by rw [cut_blank, hfront], ?_, hleads, ?_⟩
    · rw [hposition, byteSize_cons, ← Nat.add_assoc]
      rfl
    · exact Apart.append (fun _ => apart_singleton (by decide) _) hapart
  | item first rest hl ih =>
    intro offset before after item h
    rw [hl.cut_eq] at h
    cases before with
    | nil =>
      obtain ⟨rfl, -⟩ := List.cons.inj h
      exact ⟨[], rest, rfl, rfl, rfl, hl, by simp [Apart]⟩
    | cons _ before =>
      obtain ⟨rfl, htail⟩ := List.cons.inj h
      obtain ⟨front, tail, rfl, hfront, hposition, hleads, hapart⟩ := ih htail
      refine ⟨first ++ front, tail, by simp, by rw [hl.left.cut_eq, hfront], ?_, hleads, ?_⟩
      · rw [hposition, byteSize_append, ← Nat.add_assoc]
      · refine Apart.append (fun hnil => ?_) hapart
        rw [hnil] at hl
        exact hl.apart

theorem position_of_mem_cut {offset : Nat} {text : List Char} {item : Item}
    (h : item ∈ cut offset text) :
    offset ≤ item.position ∧ item.position < offset + byteSize text := by
  obtain ⟨before, after, h⟩ := List.append_of_mem h
  obtain ⟨front, rest, rfl, -, hposition, hl, -⟩ := exists_divided h
  have := byteSize_pos hl.ne_nil
  rw [byteSize_append, byteSize_append]
  omega

theorem pairwise_cut (offset : Nat) (text : List Char) :
    (cut offset text).Pairwise (·.position < ·.position) := by
  induction text using text_induction generalizing offset with
  | nil => exact .nil
  | blank cs ih =>
    rw [cut_blank]
    exact ih _
  | item first rest hl ih =>
    rw [hl.cut_eq]
    refine .cons (fun item h => ?_) (ih _)
    have := (position_of_mem_cut h).1
    have := byteSize_pos hl.ne_nil
    show offset < item.position
    omega

end Item

end LineCalc
