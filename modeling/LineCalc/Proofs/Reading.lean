/-
Reading a line is reading its items one by one, up to the first that is no token: this is what
the lexer does in either way of asking it, and so what `tokenize` answers and what an
evaluation gets to see.

`nextToken_split` says all that one request can do; everything else here follows from it by
induction on the items that are left.
-/
import LineCalc.Proofs.Item

namespace LineCalc

/-! ## One item -/

theorem literal?_eq (run : List Char) :
    Lexer.literal? run =
      if Decimal.value run ≤ 9223372036854775807 then some (Int64.ofNat (Decimal.value run))
      else none := by
  have hrange : Word.InRange (Decimal.value run) ↔ Decimal.value run ≤ 9223372036854775807 := by
    unfold Word.InRange
    omega
  unfold Lexer.literal? Word.ofInt?
  split <;> rename_i h <;> rw [hrange] at h
  · rw [if_pos h, Int64.ofInt_eq_ofNat]
  · rw [if_neg h]

theorem value_digit_le {c : Char} (h : c.isDigit) : Decimal.value [c] ≤ 9 := by
  have := (Char.isDigit_iff_toNat.mp h).2
  simp only [Decimal.value, Nat.ofDigitChars_cons, Nat.ofDigitChars_nil]
  have h9 : '9'.toNat = 57 := rfl
  have h0 : '0'.toNat = 48 := rfl
  omega

namespace Item

theorem find?_signs (c : Char) :
    signs.find? (fun t => t.symbol.toList = [c]) = Token.ofChar? c := by
  unfold Token.ofChar?
  split
  case h_7 h₁ h₂ h₃ h₄ h₅ h₆ =>
    rw [List.find?_eq_none]
    intro t ht he
    simp only [signs, List.mem_cons, List.not_mem_nil, or_false] at ht
    rcases ht with rfl | rfl | rfl | rfl | rfl | rfl <;> simp [Token.symbol] at he
    · exact h₁ he.symm
    · exact h₂ he.symm
    · exact h₃ he.symm
    · exact h₄ he.symm
    · exact h₅ he.symm
    · exact h₆ he.symm
  all_goals decide

/-- A digit run, as an item, is what the lexer makes of it. -/
theorem read_run {run : List Char} (ne : run ≠ []) (digits : ∀ c ∈ run, c.isDigit) (position : Nat) :
    (Item.mk run position).read =
      match Lexer.literal? run with
      | some value => .ok (.integer value)
      | none => .error (.literalTooLarge (String.ofList run) position) := by
  have hall : run.all Char.isDigit = true := List.all_eq_true.mpr digits
  rw [literal?_eq]
  by_cases h : Decimal.value run ≤ 9223372036854775807
  · simp [read, token?, hall, h]
  · have hfault : (Item.mk run position).fault = .literalTooLarge (String.ofList run) position := by
      unfold fault
      split
      · rename_i c hc
        obtain rfl : run = [c] := hc
        have := value_digit_le (digits c (by simp))
        omega
      · rfl
    simp [read, token?, hall, h, hfault]

theorem read_char {c : Char} (notDigit : c.isDigit = false) (position : Nat) :
    (Item.mk [c] position).read =
      match Token.ofChar? c with
      | some token => .ok token
      | none => .error (.unknownCharacter c position) := by
  have htoken : (Item.mk [c] position).token? = Token.ofChar? c := by
    simp only [token?, List.all_cons, notDigit, Bool.false_and, Bool.false_eq_true, if_false]
    exact find?_signs c
  rw [read, htoken]
  cases Token.ofChar? c <;> rfl

theorem read_eq_ok_iff {item : Item} {token : Token} :
    item.read = .ok token ↔ item.token? = some token := by
  unfold read
  split <;> rename_i h <;> simp [h]

theorem read_eq_error_iff {item : Item} {error : LexError} :
    item.read = .error error ↔ item.token? = none ∧ item.fault = error := by
  unfold read
  split <;> rename_i h <;> simp [h]

/-- An item that is a token is a sign, or a digit run that is in range. -/
theorem Leads.of_token? {first rest : List Char} (h : Leads first rest) {position : Nat} {token : Token}
    (htoken : (Item.mk first position).token? = some token) :
    (∃ c, first = [c] ∧ Token.ofChar? c = some token) ∨
    ∃ value, token = .integer value ∧ Lexer.literal? first = some value ∧ first ≠ [] ∧
      (∀ c ∈ first, c.isDigit) ∧ ∀ c ∈ rest.head?, c.isDigit = false := by
  have hread := read_eq_ok_iff.mpr htoken
  cases h with
  | @char c _ _ notDigit =>
    rw [read_char notDigit] at hread
    cases hof : Token.ofChar? c with
    | none =>
      rw [hof] at hread
      cases hread
    | some sign =>
      rw [hof] at hread
      exact .inl ⟨c, rfl, hof.trans (congrArg some (Except.ok.inj hread))⟩
  | run ne digits ends =>
    rw [read_run ne digits] at hread
    cases hliteral : Lexer.literal? first with
    | none =>
      rw [hliteral] at hread
      cases hread
    | some value =>
      rw [hliteral] at hread
      exact .inr ⟨value, (Except.ok.inj hread).symm, rfl, ne, digits, ends⟩

/-- An item that is none is a character that is no sign, or a digit run that is too large. -/
theorem Leads.of_fault {first rest : List Char} (h : Leads first rest) {position : Nat} {error : LexError}
    (hread : (Item.mk first position).read = .error error) :
    (∃ c, first = [c] ∧ c ≠ ' ' ∧ c.isDigit = false ∧ Token.ofChar? c = none ∧
      error = .unknownCharacter c position) ∨
    (error = .literalTooLarge (String.ofList first) position ∧
      9223372036854775807 < Decimal.value first ∧ first ≠ [] ∧ (∀ c ∈ first, c.isDigit) ∧
      ∀ c ∈ rest.head?, c.isDigit = false) := by
  cases h with
  | @char c _ notBlank notDigit =>
    rw [read_char notDigit] at hread
    cases hof : Token.ofChar? c with
    | some token =>
      rw [hof] at hread
      cases hread
    | none =>
      rw [hof] at hread
      exact .inl ⟨c, rfl, notBlank, notDigit, hof, (Except.error.inj hread).symm⟩
  | run ne digits ends =>
    rw [read_run ne digits, literal?_eq] at hread
    by_cases hle : Decimal.value first ≤ 9223372036854775807
    · rw [if_pos hle] at hread
      cases hread
    · rw [if_neg hle] at hread
      exact .inr ⟨(Except.error.inj hread).symm, Nat.lt_of_not_le hle, ne, digits, ends⟩

theorem token?_ne_endOfInput (item : Item) : item.token? ≠ some .endOfInput := by
  unfold token?
  dsimp only
  split
  · split <;> simp
  · intro h
    have := List.mem_of_find?_eq_some h
    simp [signs] at this

theorem toInt_of_token? {item : Item} {value : Word} (h : item.token? = some (.integer value)) :
    value.toInt = Decimal.value item.text := by
  unfold token? at h
  dsimp only at h
  split at h
  · split at h
    · rename_i hle
      obtain rfl := Token.integer.inj (Option.some.inj h)
      exact Int64.toInt_ofNat_of_lt (by omega)
    · cases h
  · have := List.mem_of_find?_eq_some h
    simp [signs] at this

end Item

/-! ## One request -/

namespace Lexer

theorem byteSize_run {run : List Char} (digits : ∀ c ∈ run, c.isDigit) :
    byteSize run = run.length := by
  refine byteSize_of_ascii fun c hc => ?_
  have := (Char.isDigit_iff_toNat.mp (digits c hc)).2
  rw [Char.utf8Size_eq_one_iff, UInt32.le_iff_toNat_le]
  exact Nat.le_trans this (by decide)

theorem nextToken_of_leads {l : Lexer} {first rest : List Char} {start : Nat}
    (hl : Item.Leads first rest) (hrest : l.rest.dropWhile isBlank = first ++ rest)
    (hstart : l.cursor + (l.rest.takeWhile isBlank).length = start) :
    l.nextToken = ((Item.mk first start).read,
      { l.past start (byteSize first) rest with
        failed := l.failed || (Item.mk first start).token?.isNone }) := by
  unfold nextToken
  rw [hrest, hstart]
  cases hl with
  | @char c _ notBlank notDigit =>
    have hread := Item.read_char notDigit start
    simp only [List.cons_append, List.nil_append, notDigit, Bool.false_eq_true, if_false, hread,
      byteSize_singleton]
    cases ht : Token.ofChar? c with
    | some token =>
      rw [ht] at hread
      simp [Item.read_eq_ok_iff.mp hread, past]
    | none =>
      rw [ht] at hread
      simp [(Item.read_eq_error_iff.mp hread).1, past, fail]
  | run ne digits ends =>
    obtain ⟨c, run, rfl⟩ := List.exists_cons_of_ne_nil ne
    have hd : c.isDigit := digits c (by simp)
    have hrun : ∀ d ∈ run, d.isDigit := fun d hm => digits d (by simp [hm])
    have hread := Item.read_run (by simp) digits start
    simp only [List.cons_append, hd, if_true, Item.takeWhile_isDigit hrun ends,
      Item.dropWhile_isDigit hrun ends, hread, byteSize_run digits]
    cases hv : literal? (c :: run) with
    | some value =>
      rw [hv] at hread
      simp [Item.read_eq_ok_iff.mp hread, past]
    | none =>
      rw [hv] at hread
      simp [(Item.read_eq_error_iff.mp hread).1, past, fail]

/-- All that one request can do. Behind the spaces that are skipped, the line ends, or an item stands
there, the first of those that are left, and is handed out as a token or as a fault. -/
theorem nextToken_split (l : Lexer) :
    (Item.cut l.cursor l.rest = [] ∧
      l.nextToken = (.ok .endOfInput, l.past (l.cursor + byteSize l.rest) 0 [])) ∨
    ∃ blanks first rest, l.rest = blanks ++ (first ++ rest) ∧ Item.Leads first rest ∧
      let item : Item := ⟨first, l.cursor + byteSize blanks⟩
      Item.cut l.cursor l.rest = item :: Item.cut (item.position + byteSize first) rest ∧
      l.nextToken = (item.read,
        { l.past item.position (byteSize first) rest with failed := l.failed || item.token?.isNone }) := by
  have hblanks : ∀ c ∈ l.rest.takeWhile isBlank, c = ' ' := fun c hc => by
    simpa [isBlank] using List.all_eq_true.mp List.all_takeWhile c hc
  have hbytes : byteSize (l.rest.takeWhile isBlank) = (l.rest.takeWhile isBlank).length := by
    refine byteSize_of_ascii fun c hc => ?_
    rw [hblanks c hc]
    rfl
  have hsplit : l.rest = l.rest.takeWhile isBlank ++ l.rest.dropWhile isBlank :=
    List.takeWhile_append_dropWhile.symm
  have hcut := Item.cut_blanks_append hblanks l.cursor (l.rest.dropWhile isBlank)
  rw [← hsplit] at hcut
  cases hrest : l.rest.dropWhile isBlank with
  | nil =>
    have hall : l.rest.takeWhile isBlank = l.rest := by
      rw [hrest, List.append_nil] at hsplit
      exact hsplit.symm
    refine .inl ⟨by rw [hcut, hrest, Item.cut_nil], ?_⟩
    unfold nextToken
    rw [hrest, ← hbytes, hall]
  | cons c cs =>
    right
    have notBlank : c ≠ ' ' := by
      have := List.head?_dropWhile_not isBlank l.rest
      rw [hrest] at this
      simpa [isBlank] using this
    obtain ⟨first, rest, htext, hl⟩ := Item.exists_leads notBlank cs
    rw [htext] at hrest
    refine ⟨l.rest.takeWhile isBlank, first, rest, ?_, hl, ?_, ?_⟩
    · rw [← hrest]
      exact hsplit
    · rw [hcut, hrest, hl.cut_eq]
    · exact nextToken_of_leads hl hrest (by rw [hbytes])

/-- The same without the text: what is handed out is the first item that is left. -/
theorem nextToken_cases (l : Lexer) :
    (Item.cut l.cursor l.rest = [] ∧
      l.nextToken = (.ok .endOfInput, l.past (l.cursor + byteSize l.rest) 0 [])) ∨
    ∃ item after, l.nextToken = (item.read, after) ∧
      Item.cut l.cursor l.rest = item :: Item.cut after.cursor after.rest ∧
      after.cursor + byteSize after.rest = l.cursor + byteSize l.rest ∧
      after.position = item.position ∧ after.failed = (l.failed || item.token?.isNone) := by
  rcases l.nextToken_split with hend | ⟨blanks, first, rest, hrest, -, hcut, hnext⟩
  · exact .inl hend
  · refine .inr ⟨_, _, hnext, hcut, ?_, rfl, rfl⟩
    simp [past, hrest, Nat.add_assoc]

end Lexer

/-! ## All requests -/

/-- What an evaluation gets to see of a line of `size` bytes with these items. -/
def Scan.ofItems : (items : List Item) → (size : Nat) → Scan
  | [], size => ⟨[], .ok size⟩
  | item :: items, size =>
    match item.token? with
    | some token => (ofItems items size).cons ⟨token, item.position⟩
    | none => ⟨[], .error item.fault⟩

theorem Lexer.scan_eq_ofItems (l : Lexer) :
    l.scan = Scan.ofItems (Item.cut l.cursor l.rest) (l.cursor + byteSize l.rest) := by
  generalize hitems : Item.cut l.cursor l.rest = items
  induction items generalizing l with
  | nil =>
    rcases l.nextToken_cases with ⟨-, hnext⟩ | ⟨item, after, -, hcut, -⟩
    · rw [scan_eq, hnext]
      rfl
    · rw [hitems] at hcut
      cases hcut
  | cons item items ih =>
    rcases l.nextToken_cases with ⟨hcut, -⟩ | ⟨first, after, hnext, hcut, hsize, hpos, -⟩
    · rw [hitems] at hcut
      cases hcut
    · obtain ⟨rfl, hrest⟩ := List.cons.inj (hitems.symm.trans hcut)
      rw [scan_eq, hnext]
      unfold Item.read Scan.ofItems
      cases ht : item.token? with
      | none => rfl
      | some token =>
        have ne : token ≠ .endOfInput := fun h => item.token?_ne_endOfInput (h ▸ ht)
        simp only [ne, if_false]
        rw [ih after hrest.symm, hsize, hpos]

theorem Lexer.next?_of_nextToken {l after : Lexer} {result : Except LexError Token}
    (h : l.failed = false) (hnext : l.nextToken = (result, after)) (ne : result ≠ .ok .endOfInput) :
    l.next? = (some result, after) := by
  simp only [next?, h, Bool.false_eq_true, if_false, hnext]

/-- Draining a lexer that has met no error yet reads the items that are left, up to the first
that is no token. -/
theorem Lexer.mapM_drain (l : Lexer) (h : l.failed = false) :
    l.drain.1.mapM id = (Item.cut l.cursor l.rest).mapM Item.read := by
  generalize hitems : Item.cut l.cursor l.rest = items
  induction items generalizing l with
  | nil =>
    rcases l.nextToken_cases with ⟨-, hnext⟩ | ⟨item, after, -, hcut, -⟩
    · rw [drain_eq, next?, h, hnext]
      rfl
    · rw [hitems] at hcut
      cases hcut
  | cons item items ih =>
    rcases l.nextToken_cases with ⟨hcut, -⟩ | ⟨first, after, hnext, hcut, -, -, hfailed⟩
    · rw [hitems] at hcut
      cases hcut
    · obtain ⟨rfl, hrest⟩ := List.cons.inj (hitems.symm.trans hcut)
      rw [h, Bool.false_or] at hfailed
      have ne : item.read ≠ .ok .endOfInput := fun he =>
        item.token?_ne_endOfInput (Item.read_eq_ok_iff.mp he)
      rw [drain_eq, next?_of_nextToken h hnext ne]
      simp only [List.mapM_cons, id]
      cases hread : item.read with
      | error error => rfl
      | ok token =>
        rw [Item.read_eq_ok_iff.mp hread] at hfailed
        rw [ih after hfailed hrest.symm]

/-! ## A whole line -/

namespace Item

theorem mapM_read (items : List Item) :
    items.mapM read =
      match items.find? (·.token?.isNone) with
      | some bad => .error bad.fault
      | none => .ok (items.filterMap token?) := by
  induction items with
  | nil => rfl
  | cons item items ih =>
    rw [List.mapM_cons, List.find?_cons, List.filterMap_cons, ih, read]
    cases item.token? with
    | none => rfl
    | some token =>
      simp only [Option.isNone_some]
      cases items.find? (·.token?.isNone) <;> rfl

/-- An item as a token in its place. -/
def placed? (item : Item) : Option Placed := item.token?.map (⟨·, item.position⟩)

end Item

/-- The tokens of a line in their places. -/
def placedTokens (line : String) : List Placed := (Item.ofLine line).filterMap Item.placed?

theorem Scan.ofItems_good {items : List Item} (h : ∀ item ∈ items, item.token? ≠ none) (size : Nat) :
    ofItems items size = ⟨items.filterMap Item.placed?, .ok size⟩ := by
  induction items with
  | nil => rfl
  | cons item items ih =>
    obtain ⟨token, ht⟩ := Option.ne_none_iff_exists'.mp (h item (by simp))
    rw [ofItems, ih fun i hi => h i (by simp [hi])]
    simp [ht, Item.placed?, cons]

theorem Scan.ofItems_append {a : List Item} {size ending : Nat} (h : (ofItems a size).ending = .ok ending)
    (b : List Item) (size' : Nat) :
    ofItems (a ++ b) size' =
      ⟨(ofItems a size).tokens ++ (ofItems b size').tokens, (ofItems b size').ending⟩ := by
  induction a with
  | nil => rfl
  | cons item a ih =>
    rw [List.cons_append]
    simp only [ofItems] at h ⊢
    cases htoken : item.token? with
    | none =>
      rw [htoken] at h
      cases h
    | some token =>
      rw [htoken] at h
      dsimp only at h ⊢
      rw [ih h]
      rfl

theorem Scan.ofItems_bad {good rest : List Item} {bad : Item}
    (h : ∀ item ∈ good, item.token? ≠ none) (hbad : bad.token? = none) (size : Nat) :
    ofItems (good ++ bad :: rest) size = ⟨good.filterMap Item.placed?, .error bad.fault⟩ := by
  have hgood := ofItems_good h size
  rw [ofItems_append (by rw [hgood]), hgood, ofItems, hbad]
  simp

theorem Scan.ofString_eq (line : String) :
    ofString line = ofItems (Item.ofLine line) line.utf8ByteSize := by
  rw [ofString, Lexer.scan_eq_ofItems]
  simp [Lexer.ofString, Lexer.ofChars, Item.ofLine, byteSize_toList]

theorem tokenize_eq_mapM (line : String) :
    tokenize line = (· ++ [.endOfInput]) <$> (Item.ofLine line).mapM Item.read := by
  rw [tokenize, Lexer.mapM_drain _ rfl]
  rfl

theorem Item.position_fault (item : Item) : item.fault.position = item.position := by
  unfold fault
  split <;> rfl

theorem Item.filterMap_placed?_map (items : List Item) :
    (items.filterMap placed?).map (·.token) = items.filterMap token? := by
  rw [List.map_filterMap]
  congr 1
  funext item
  cases h : item.token? <;> simp [placed?, h]

theorem Item.position_of_placed? {item : Item} {t : Placed} (h : item.placed? = some t) :
    t.position = item.position := by
  obtain ⟨token, -, rfl⟩ := Option.map_eq_some_iff.mp h
  rfl

theorem Item.filterMap_placed?_filter {before after : List Item} {item : Item}
    (h : (before ++ item :: after).Pairwise (·.position < ·.position)) (hitem : item.token? = none) :
    ((before ++ item :: after).filterMap placed?).filter (·.position < item.position) =
      before.filterMap placed? := by
  obtain ⟨-, hafter, hbefore⟩ := List.pairwise_append.mp h
  have hplaced : item.placed? = none := by simp [placed?, hitem]
  rw [List.filterMap_append, List.filterMap_cons_none hplaced, List.filter_append,
    List.filter_eq_self.mpr, List.filter_eq_nil_iff.mpr, List.append_nil]
  · intro t ht
    obtain ⟨other, hother, hof⟩ := List.mem_filterMap.mp ht
    have := (List.pairwise_cons.mp hafter).1 other hother
    rw [position_of_placed? hof]
    simp only [decide_eq_true_eq]
    omega
  · intro t ht
    obtain ⟨other, hother, hof⟩ := List.mem_filterMap.mp ht
    have := hbefore other hother item (by simp)
    rw [position_of_placed? hof]
    simpa using this

/-- What can come of reading a line: all of its items are tokens, or an evaluation sees the ones
before the first that is not. -/
theorem Scan.ofString_cases (line : String) :
    (tokenize line = .ok ((placedTokens line).map (·.token) ++ [.endOfInput]) ∧
      ofString line = ⟨placedTokens line, .ok line.utf8ByteSize⟩) ∨
    ∃ error, tokenize line = .error error ∧
      ofString line = ⟨(placedTokens line).filter (·.position < error.position), .error error⟩ := by
  rw [tokenize_eq_mapM, Item.mapM_read, ofString_eq, placedTokens]
  cases hbad : (Item.ofLine line).find? (·.token?.isNone) with
  | none =>
    have hgood : ∀ item ∈ Item.ofLine line, item.token? ≠ none := by
      simpa [List.find?_eq_none] using hbad
    refine .inl ⟨?_, ofItems_good hgood _⟩
    rw [Item.filterMap_placed?_map]
    rfl
  | some bad =>
    obtain ⟨hnone, good, rest, hitems, hgood⟩ := List.find?_eq_some_iff_append.mp hbad
    have hgood : ∀ item ∈ good, item.token? ≠ none := fun item hi hno => by
      simpa [hno] using hgood item hi
    have hnone : bad.token? = none := by simpa using hnone
    refine .inr ⟨bad.fault, rfl, ?_⟩
    have hsorted := Item.pairwise_cut 0 line.toList
    rw [show Item.cut 0 line.toList = Item.ofLine line from rfl, hitems] at hsorted
    rw [hitems, ofItems_bad hgood hnone, Item.position_fault, Item.filterMap_placed?_filter hsorted hnone]

theorem Scan.exists_placedTokens_eq (line : String) :
    ∃ rest, placedTokens line = (ofString line).tokens ++ rest := by
  rw [ofString_eq, placedTokens]
  induction Item.ofLine line with
  | nil => exact ⟨[], rfl⟩
  | cons item items ih =>
    obtain ⟨rest, hrest⟩ := ih
    rw [ofItems]
    cases htoken : item.token? with
    | none => exact ⟨_, rfl⟩
    | some token => exact ⟨rest, by simp [Item.placed?, htoken, hrest, cons]⟩

/-- The tokens of a line in their places, with its end. -/
def placedLine (line : String) : List Placed :=
  placedTokens line ++ [⟨.endOfInput, line.utf8ByteSize⟩]

theorem pairwise_placedLine (line : String) :
    (placedLine line).Pairwise (·.position < ·.position) := by
  refine List.pairwise_append.mpr ⟨?_, by simp, fun t ht e he => ?_⟩
  · refine (Item.pairwise_cut 0 line.toList).filterMap _ fun item other hlt t ht t' ht' => ?_
    rwa [Item.position_of_placed? ht, Item.position_of_placed? ht']
  · obtain rfl := List.mem_singleton.mp he
    obtain ⟨item, hitem, hplaced⟩ := List.mem_filterMap.mp ht
    have := (Item.position_of_mem_cut hitem).2
    rwa [Item.position_of_placed? hplaced, ← byteSize_toList, ← Nat.zero_add (byteSize _)]

theorem filter_position_le {before after : List Placed} {t : Placed}
    (h : (before ++ t :: after).Pairwise (·.position < ·.position)) :
    (before ++ t :: after).filter (·.position ≤ t.position) = before ++ [t] := by
  obtain ⟨-, hafter, hbefore⟩ := List.pairwise_append.mp h
  have hle : ∀ t' ∈ before, t'.position ≤ t.position := fun t' ht' =>
    Nat.le_of_lt (hbefore t' ht' t (by simp))
  have hgt : ∀ t' ∈ after, ¬ t'.position ≤ t.position := fun t' ht' =>
    Nat.not_le_of_lt ((List.pairwise_cons.mp hafter).1 t' ht')
  rw [List.filter_append, List.filter_cons_of_pos (by simp), List.filter_eq_self.mpr (by simpa using hle),
    List.filter_eq_nil_iff.mpr (by simpa using hgt)]

/-- **What `tokenize` answers is a function of the items.** If each of them is a number that is not
too large or a sign, the answer is their tokens in order and one end-of-line token, and each number
is worth what its digits say. Otherwise it is the fault of the leftmost item that is no token. -/
theorem tokenize_eq_items (line : String) :
    tokenize line =
        (match (Item.ofLine line).find? (·.token?.isNone) with
        | some bad => .error bad.fault
        | none => .ok ((Item.ofLine line).filterMap Item.token? ++ [.endOfInput])) ∧
      ∀ item ∈ Item.ofLine line, ∀ value, item.token? = some (.integer value) →
        value.toInt = Decimal.value item.text := by
  refine ⟨?_, fun item _ value h => Item.toInt_of_token? h⟩
  rw [tokenize_eq_mapM, Item.mapM_read]
  cases (Item.ofLine line).find? (·.token?.isNone) <;> rfl

end LineCalc
