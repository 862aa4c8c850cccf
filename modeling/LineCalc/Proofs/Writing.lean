/-
Tokens written as text. A token that is written with a space in front of it is one item, whatever
text stands before the space, so more tokens can be put behind any line whose items are all tokens
(`Scan.ofString_append`). A sign needs no space. The other way round, a line can be divided in front of
any token that an evaluation gets to see of it (`Scan.ofString_before`).
-/
import LineCalc.Proofs.Reading

namespace LineCalc

namespace Token

/-! ## One token -/

/-- A token that can be written: the end of a line cannot, and a minus sign would be a token of
its own. -/
def Writable : Token → Prop
  | integer value => 0 ≤ value.toInt
  | endOfInput => False
  | _ => True

theorem toList_symbol_integer {value : Word} (h : 0 ≤ value.toInt) :
    (integer value).symbol.toList = Decimal.digits value.toInt.toNat := by
  rw [symbol, ← Int.toNat_of_nonneg h]
  exact String.toList_ofList

theorem isDigit_of_mem_digits {n : Nat} {c : Char} (h : c ∈ Decimal.digits n) : c.isDigit :=
  Nat.isDigit_of_mem_toDigits (by decide) (by decide) h

theorem Writable.leads {token : Token} (h : token.Writable) {rest : List Char}
    (hrest : ∀ c ∈ rest.head?, c.isDigit = false) : Item.Leads token.symbol.toList rest := by
  cases token with
  | integer value =>
    rw [toList_symbol_integer h]
    exact .run Nat.toDigits_ne_nil (fun c hc => isDigit_of_mem_digits hc) hrest
  | endOfInput => exact h.elim
  | _ => exact .char (by decide) (by decide)

theorem Writable.token?_eq {token : Token} (h : token.Writable) (position : Nat) :
    (Item.mk token.symbol.toList position).token? = some token := by
  cases token with
  | integer value =>
    have hall : (Decimal.digits value.toInt.toNat).all Char.isDigit :=
      List.all_eq_true.mpr fun c hc => isDigit_of_mem_digits hc
    have hle : value.toInt.toNat ≤ 9223372036854775807 := by
      have := value.inRange_toInt.2
      omega
    have hword : Int64.ofNat value.toInt.toNat = value := by
      rw [← Int64.ofInt_eq_ofNat, Int.toNat_of_nonneg h, Int64.ofInt_toInt]
    simp only [toList_symbol_integer h, Item.token?, hall, if_true, Decimal.value_digits, hle, hword]
  | endOfInput => exact h.elim
  | _ => simp [Item.token?, symbol, Item.signs, Char.isDigit]

theorem notBlank_notDigit_of_ofChar? {c : Char} {token : Token} (h : ofChar? c = some token) :
    c ≠ ' ' ∧ c.isDigit = false := by
  unfold ofChar? at h
  split at h
  case h_7 => cases h
  all_goals decide

/-! ## Many tokens -/

/-- Tokens as a text, with a space in front of each. -/
def write (tokens : List Token) : List Char := tokens.flatMap fun t => ' ' :: t.symbol.toList

theorem isDigit_of_head?_write {tokens : List Token} : ∀ c ∈ (write tokens).head?, c.isDigit = false := by
  cases tokens with
  | nil => simp [write]
  | cons t ts => simp [write, Char.isDigit]

/-- Cutting up what was written gives the tokens back. -/
theorem map_token?_cut_write {tokens : List Token} (h : ∀ t ∈ tokens, t.Writable) (offset : Nat) :
    (Item.cut offset (write tokens)).map Item.token? = tokens.map some := by
  induction tokens generalizing offset with
  | nil => rfl
  | cons t ts ih =>
    have ht : t.Writable := h t (by simp)
    have hwrite : write (t :: ts) = ' ' :: (t.symbol.toList ++ write ts) := rfl
    rw [hwrite, Item.cut_blank, (ht.leads isDigit_of_head?_write).cut_eq, List.map_cons, ht.token?_eq,
      ih fun t ht => h t (by simp [ht])]
    rfl

end Token

/-! ## Lines put together and divided -/

namespace Item

theorem ofLine_append {line more : String} (h : Apart line.toList more.toList) :
    ofLine (line ++ more) = ofLine line ++ cut line.utf8ByteSize more.toList := by
  rw [ofLine, String.toList_append, cut_append 0 h, Nat.zero_add, byteSize_toList]
  rfl

end Item

namespace Scan

theorem ofItems_append_of_error {a : List Item} {size : Nat} {error : LexError}
    (h : (ofItems a size).ending = .error error) (b : List Item) (size' : Nat) :
    ofItems (a ++ b) size' = ofItems a size := by
  induction a with
  | nil => cases h
  | cons item a ih =>
    rw [List.cons_append]
    simp only [ofItems] at h ⊢
    cases htoken : item.token? with
    | none => rfl
    | some token =>
      rw [htoken] at h
      dsimp only at h ⊢
      rw [ih h]

theorem ofItems_cut_sign {c : Char} {token : Token} (h : Token.ofChar? c = some token)
    (offset size : Nat) (text : List Char) :
    ofItems (Item.cut offset (c :: text)) size =
      (ofItems (Item.cut (offset + c.utf8Size) text) size).cons ⟨token, offset⟩ := by
  have hchar := Token.notBlank_notDigit_of_ofChar? h
  have hread : (Item.mk [c] offset).token? = some token := by
    rw [← Item.read_eq_ok_iff, Item.read_char hchar.2, h]
  have hcut := (@Item.Leads.char c text hchar.1 hchar.2).cut_eq offset
  rw [List.singleton_append, byteSize_singleton] at hcut
  rw [hcut]
  simp only [ofItems, hread]

/-- In front of a token that is seen stand items that are all tokens. -/
theorem ofItems_before {items : List Item} {size : Nat} {before after : List Placed} {t : Placed}
    (h : (ofItems items size).tokens = before ++ t :: after) :
    ∃ front item rest, items = front ++ item :: rest ∧ item.position = t.position ∧
      ∀ size, ofItems front size = ⟨before, .ok size⟩ := by
  induction items generalizing before with
  | nil => simp [ofItems] at h
  | cons item items ih =>
    rw [ofItems] at h
    cases htoken : item.token? with
    | none => simp [htoken] at h
    | some token =>
      rw [htoken] at h
      cases before with
      | nil =>
        obtain ⟨rfl, -⟩ := List.cons.inj h
        exact ⟨[], item, items, rfl, rfl, fun _ => rfl⟩
      | cons first before =>
        obtain ⟨rfl, htail⟩ := List.cons.inj h
        obtain ⟨front, next, rest, rfl, hposition, hfront⟩ := ih htail
        refine ⟨item :: front, next, rest, rfl, hposition, fun size => ?_⟩
        simp only [ofItems, htoken, hfront]
        rfl

theorem ofString_append_of_ok {line more : String} (hjoin : Item.Apart line.toList more.toList)
    {size : Nat} (h : (ofString line).ending = .ok size) :
    ofString (line ++ more) =
      ⟨(ofString line).tokens ++
          (ofItems (Item.cut line.utf8ByteSize more.toList) (line ++ more).utf8ByteSize).tokens,
        (ofItems (Item.cut line.utf8ByteSize more.toList) (line ++ more).utf8ByteSize).ending⟩ := by
  rw [ofString_eq] at h
  rw [ofString_eq, ofString_eq, Item.ofLine_append hjoin, ofItems_append h]

/-- Tokens that are written behind a line of tokens are read behind its own. -/
theorem ofString_append {line : String} {tokens : List Placed} {size : Nat}
    (h : ofString line = ⟨tokens, .ok size⟩) {more : List Token} (hmore : ∀ t ∈ more, t.Writable) :
    ∃ placed ending, placed.map (·.token) = more ∧
      ofString (line ++ String.ofList (Token.write more)) = ⟨tokens ++ placed, .ok ending⟩ := by
  have hjoin : Item.Apart line.toList (String.ofList (Token.write more)).toList := by
    rw [String.toList_ofList]
    exact Item.apart_of_head? Token.isDigit_of_head?_write _
  have hscan := ofString_append_of_ok hjoin (by rw [h])
  rw [h, String.toList_ofList] at hscan
  have hread := Token.map_token?_cut_write hmore line.utf8ByteSize
  generalize Item.cut line.utf8ByteSize (Token.write more) = items at hscan hread
  have hgood : ∀ item ∈ items, item.token? ≠ none := by
    intro item hitem hnone
    have : none ∈ more.map some := by
      rw [← hread, ← hnone]
      exact List.mem_map_of_mem hitem
    simp at this
  rw [ofItems_good hgood] at hscan
  refine ⟨items.filterMap Item.placed?, _, ?_, hscan⟩
  calc (items.filterMap Item.placed?).map (·.token) = items.filterMap Item.token? :=
        Item.filterMap_placed?_map items
    _ = (items.map Item.token?).filterMap id := by rw [List.filterMap_map]; rfl
    _ = more := by rw [hread, List.filterMap_map]; simp

/-- What is seen of a line before one of its tokens is all there is of the text before that token. -/
theorem ofString_before {line : String} {before after : List Placed} {t : Placed}
    (h : (ofString line).tokens = before ++ t :: after) :
    ∃ front rest, line = front ++ rest ∧ front.utf8ByteSize = t.position ∧
      ofString front = ⟨before, .ok t.position⟩ := by
  rw [ofString_eq] at h
  obtain ⟨good, item, others, hitems, hposition, hgood⟩ := ofItems_before h
  obtain ⟨front, rest, htext, hfront, hsize, -⟩ := Item.exists_divided hitems
  rw [Nat.zero_add] at hsize
  have hbytes : (String.ofList front).utf8ByteSize = t.position := hsize.symm.trans hposition
  refine ⟨String.ofList front, String.ofList (item.text ++ rest), eq_ofList_append htext, hbytes, ?_⟩
  rw [ofString_eq, Item.ofLine, String.toList_ofList, hfront, hgood, hbytes]

end Scan

end LineCalc
