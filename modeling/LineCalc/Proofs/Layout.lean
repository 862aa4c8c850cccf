/-
Layouts: all the ways to write tokens down as a text. Each token is written as its lexeme, a number with any
zeros in front of it, and there may be any spaces, but between two numbers there has to be one.

A layout is read back as the tokens that it was made for, each where it was written (`Chunk.cut_join`), since no
lexeme runs into the next one. The other way round, a text whose items are all tokens is a layout
(`Chunk.exists_join`): reading loses nothing but spaces and zeros.
-/
import LineCalc.Proofs.Numeral
import LineCalc.Proofs.Requests

namespace LineCalc

/-! ## One token -/

/-- How a token may be written: as its lexeme, and if it is a number, with zeros in front. -/
inductive Token.WrittenAs : Token → List Char → Prop
  | number {value : Word} (nonneg : 0 ≤ value.toInt) (zeros : Nat) :
    WrittenAs (.integer value) (List.replicate zeros '0' ++ (Token.integer value).symbol.toList)
  | sign {token : Token} (mem : token ∈ Item.signs) : WrittenAs token token.symbol.toList

namespace Token.WrittenAs

variable {token : Token} {lexeme : List Char}

theorem isDigit (h : token.WrittenAs lexeme) (hkind : token.kind = .integer) :
    lexeme ≠ [] ∧ ∀ c ∈ lexeme, c.isDigit := by
  cases h with
  | number nonneg zeros =>
    rw [toList_symbol_integer nonneg]
    refine ⟨by simp [Decimal.digits, Nat.toDigits_ne_nil], fun c hc => ?_⟩
    rcases List.mem_append.mp hc with hzero | hdigit
    · rw [(List.mem_replicate.mp hzero).2]
      decide
    · exact isDigit_of_mem_digits hdigit
  | sign mem =>
    simp only [Item.signs, List.mem_cons, List.not_mem_nil, or_false] at mem
    rcases mem with rfl | rfl | rfl | rfl | rfl | rfl <;> cases hkind

theorem exists_char (h : token.WrittenAs lexeme) (hkind : token.kind ≠ .integer) :
    ∃ c, lexeme = [c] ∧ c ≠ ' ' ∧ c.isDigit = false := by
  cases h with
  | number nonneg zeros => exact absurd rfl hkind
  | sign mem =>
    simp only [Item.signs, List.mem_cons, List.not_mem_nil, or_false] at mem
    rcases mem with rfl | rfl | rfl | rfl | rfl | rfl <;>
      exact ⟨_, rfl, by decide, by decide⟩

theorem leads (h : token.WrittenAs lexeme) {rest : List Char}
    (hrest : token.kind = .integer → ∀ c ∈ rest.head?, c.isDigit = false) : Item.Leads lexeme rest := by
  by_cases hkind : token.kind = .integer
  · obtain ⟨hne, hdigits⟩ := h.isDigit hkind
    exact .run hne hdigits (hrest hkind)
  · obtain ⟨c, rfl, notBlank, notDigit⟩ := h.exists_char hkind
    exact .char notBlank notDigit

theorem token?_eq (h : token.WrittenAs lexeme) (position : Nat) :
    (Item.mk lexeme position).token? = some token := by
  cases h with
  | @number value nonneg zeros =>
    obtain ⟨hne, hdigits⟩ := (WrittenAs.number nonneg zeros).isDigit rfl
    have hliteral : Lexer.literal? (List.replicate zeros '0' ++ (integer value).symbol.toList) =
        some value := by
      rw [toList_symbol_integer nonneg, Lexer.literal?, Decimal.value_zeros, Int.toNat_of_nonneg nonneg]
      exact Word.ofInt?_eq_some_iff.mpr rfl
    rw [← Item.read_eq_ok_iff, Item.read_run hne hdigits, hliteral]
  | sign mem =>
    have hwritable : token.Writable := by
      simp only [Item.signs, List.mem_cons, List.not_mem_nil, or_false] at mem
      rcases mem with rfl | rfl | rfl | rfl | rfl | rfl <;> trivial
    exact hwritable.token?_eq position

theorem nonneg {value : Word} (h : (integer value).WrittenAs lexeme) : 0 ≤ value.toInt := by
  cases h with
  | number nonneg zeros => exact nonneg
  | sign mem => simp [Item.signs] at mem

theorem ne_endOfInput (h : token.WrittenAs lexeme) : token ≠ .endOfInput := by
  rintro rfl
  cases h with
  | sign mem => simp [Item.signs] at mem

end Token.WrittenAs

/-- The other way round, an item that is read as a token is that token, written. -/
theorem Item.Leads.writtenAs {first rest : List Char} (hl : Leads first rest) {position : Nat}
    {token : Token} (h : (Item.mk first position).token? = some token) : token.WrittenAs first := by
  rcases hl.of_token? h with ⟨c, rfl, hsign⟩ | ⟨value, rfl, hliteral, ne, digits, -⟩
  · rw [← find?_signs] at hsign
    have hsymbol : token.symbol.toList = [c] := by simpa using List.find?_some hsign
    rw [← hsymbol]
    exact .sign (List.mem_of_find?_eq_some hsign)
  · have hvalue : value.toInt = Decimal.value first := Word.ofInt?_eq_some_iff.mp hliteral
    have hnonneg : 0 ≤ value.toInt := by omega
    obtain ⟨zeros, hzeros⟩ := Decimal.exists_zeros ne digits
    have hsymbol : (Token.integer value).symbol.toList = Decimal.digits (Decimal.value first) := by
      rw [Token.toList_symbol_integer hnonneg, hvalue]
      rfl
    rw [hzeros, ← hsymbol]
    exact .number hnonneg zeros

theorem Token.exists_writtenAs {token : Token} (hend : token ≠ .endOfInput)
    (hnonneg : ∀ value, token = .integer value → 0 ≤ value.toInt) : ∃ lexeme, token.WrittenAs lexeme := by
  cases token with
  | integer value => exact ⟨_, .number (hnonneg value rfl) 0⟩
  | endOfInput => exact absurd rfl hend
  | _ => exact ⟨_, .sign (by decide)⟩

/-! ## Many tokens -/

/-- A token in a text, with the spaces in front of it. -/
structure Chunk where
  spaces : Nat
  token : Token
  lexeme : List Char
  written : token.WrittenAs lexeme

namespace Chunk

/-- The chunks one after the other, and spaces behind the last one. -/
def join : (chunks : List Chunk) → (trailing : Nat) → List Char
  | [], trailing => List.replicate trailing ' '
  | c :: chunks, trailing => List.replicate c.spaces ' ' ++ (c.lexeme ++ join chunks trailing)

/-- There is a space between the two, if both are numbers. -/
def Separate (a b : Chunk) : Prop :=
  a.token.kind = .integer → b.token.kind = .integer → 0 < b.spaces

/-- The tokens with the places where they are written, the first chunk at `offset`. -/
def pieces : (offset : Nat) → List Chunk → List Piece
  | _, [] => []
  | offset, c :: chunks =>
    let start := offset + c.spaces
    let stop := start + byteSize c.lexeme
    ⟨.ok c.token, start, stop⟩ :: pieces stop chunks

/-- The lexemes as items. -/
def items : (offset : Nat) → List Chunk → List Item
  | _, [] => []
  | offset, c :: chunks =>
    let start := offset + c.spaces
    ⟨c.lexeme, start⟩ :: items (start + byteSize c.lexeme) chunks

theorem map_piece_items (offset : Nat) (chunks : List Chunk) :
    (items offset chunks).map Item.piece = pieces offset chunks := by
  induction chunks generalizing offset with
  | nil => rfl
  | cons c chunks ih =>
    have hread := Item.read_eq_ok_iff.mpr (c.written.token?_eq (offset + c.spaces))
    simp only [items, pieces, List.map_cons, ih, Item.piece, hread]

theorem map_token?_items (offset : Nat) (chunks : List Chunk) :
    (items offset chunks).map Item.token? = chunks.map fun c => some c.token := by
  induction chunks generalizing offset with
  | nil => rfl
  | cons c chunks ih => simp only [items, List.map_cons, ih, c.written.token?_eq]

theorem length_items (offset : Nat) (chunks : List Chunk) : (items offset chunks).length = chunks.length := by
  have hlength := congrArg List.length (map_token?_items offset chunks)
  simpa using hlength

/-! ## Reading what was written -/

theorem eq_blank_of_mem_replicate {n : Nat} {c : Char} (h : c ∈ List.replicate n ' ') : c = ' ' :=
  (List.mem_replicate.mp h).2

theorem byteSize_replicate_blank (n : Nat) : byteSize (List.replicate n ' ') = n := by
  have hone : ∀ c ∈ List.replicate n ' ', c.utf8Size = 1 := by
    intro c hc
    rw [eq_blank_of_mem_replicate hc]
    rfl
  rw [byteSize_of_ascii hone, List.length_replicate]

/-- Behind a number no digit comes. -/
theorem head?_join {c : Chunk} {chunks : List Chunk} (h : (c :: chunks).IsChain Separate)
    (hkind : c.token.kind = .integer) (trailing : Nat) :
    ∀ x ∈ (join chunks trailing).head?, x.isDigit = false := by
  intro x hx
  cases chunks with
  | nil =>
    rw [join] at hx
    rw [eq_blank_of_mem_replicate (List.mem_of_mem_head? hx)]
    decide
  | cons d chunks =>
    by_cases hspaces : d.spaces = 0
    · -- Without a space in front of it, this is no number.
      have hsign : d.token.kind ≠ .integer := by
        intro hd
        have := (List.isChain_cons_cons.mp h).1 hkind hd
        omega
      obtain ⟨sign, hlexeme, -, notDigit⟩ := d.written.exists_char hsign
      rw [join, hspaces, hlexeme] at hx
      obtain rfl : sign = x := by simpa using hx
      exact notDigit
    · obtain ⟨n, hn⟩ := Nat.exists_eq_succ_of_ne_zero hspaces
      rw [join, hn, List.replicate_succ] at hx
      obtain rfl : ' ' = x := by simpa using hx
      decide

/-- The items of a layout are the lexemes that it was made of. -/
theorem cut_join {chunks : List Chunk} (h : chunks.IsChain Separate) (offset trailing : Nat) :
    Item.cut offset (join chunks trailing) = items offset chunks := by
  induction chunks generalizing offset with
  | nil =>
    have hblank : ∀ c ∈ List.replicate trailing ' ', c = ' ' := fun c hc => eq_blank_of_mem_replicate hc
    have hcut := Item.cut_blanks_append hblank offset []
    simpa [join, items] using hcut
  | cons c chunks ih =>
    have hleads := c.written.leads fun hkind => head?_join h hkind trailing
    rw [join, Item.cut_blanks_append (fun c hc => eq_blank_of_mem_replicate hc), hleads.cut_eq,
      byteSize_replicate_blank, ih h.tail]
    rfl

/-! ## Writing what can be read -/

theorem isChain_cons_of_token_eq {c d : Chunk} {chunks : List Chunk} (h : (c :: chunks).IsChain Separate)
    (htoken : d.token = c.token) : (d :: chunks).IsChain Separate := by
  rw [List.isChain_cons] at h ⊢
  refine ⟨fun next hnext hd => ?_, h.2⟩
  rw [htoken] at hd
  exact h.1 next hnext hd

/-- **A text whose items are all tokens is a layout of them.** -/
theorem exists_join (text : List Char) (offset : Nat)
    (h : ∀ item ∈ Item.cut offset text, item.token? ≠ none) :
    ∃ chunks trailing, chunks.IsChain Separate ∧ text = join chunks trailing := by
  induction text using Item.text_induction generalizing offset with
  | nil => exact ⟨[], 0, .nil, rfl⟩
  | blank cs ih =>
    -- One more space: in front of the first token, or behind no token at all.
    rw [Item.cut_blank] at h
    obtain ⟨chunks, trailing, hchain, rfl⟩ := ih (offset + 1) h
    cases chunks with
    | nil => exact ⟨[], trailing + 1, .nil, rfl⟩
    | cons c chunks =>
      exact ⟨{ c with spaces := c.spaces + 1 } :: chunks, trailing, isChain_cons_of_token_eq hchain rfl, rfl⟩
  | item first rest hl ih =>
    rw [hl.cut_eq] at h
    obtain ⟨hfirst, hrest⟩ := List.forall_mem_cons.mp h
    obtain ⟨token, htoken⟩ := Option.ne_none_iff_exists'.mp hfirst
    have hwritten := hl.writtenAs htoken
    obtain ⟨chunks, trailing, hchain, rfl⟩ := ih _ hrest
    refine ⟨⟨0, token, first, hwritten⟩ :: chunks, trailing, List.isChain_cons.mpr ⟨?_, hchain⟩, rfl⟩
    intro next hnext hkind hnumber
    -- If a number came right behind this one, the two would be one item.
    by_contra hspaces
    obtain ⟨others, rfl⟩ : ∃ others, chunks = next :: others := ⟨_, List.eq_cons_of_mem_head? hnext⟩
    obtain ⟨hne, hdigits⟩ := next.written.isDigit hnumber
    obtain ⟨digit, digits, hlexeme⟩ := List.exists_cons_of_ne_nil hne
    obtain ⟨-, hall⟩ := hwritten.isDigit hkind
    have hdigit : digit ∈ (join (next :: others) trailing).head? := by
      simp [join, Nat.eq_zero_of_not_pos hspaces, hlexeme]
    cases hl with
    | char notBlank notDigit =>
      have := hall _ (List.mem_singleton.mpr rfl)
      simp [notDigit] at this
    | run ne run ends =>
      have := ends digit hdigit
      simp [hdigits digit (by simp [hlexeme])] at this

end Chunk

/-! ## Asking for one token after the other -/

/-- A lexer that is asked for one token more than there are items hands out the items, and then the end. -/
theorem Lexer.serve_tokens_eq (l : Lexer) {items : List Item} (h : Item.cut l.cursor l.rest = items) :
    (l.serve (.replicate (items.length + 1) .token)).1 =
      items.map (fun item => .handed item.piece) ++ [.ended (l.cursor + byteSize l.rest)] := by
  induction items generalizing l with
  | nil =>
    rcases l.askToken_cases with ⟨-, hask⟩ | ⟨blanks, first, rest, -, -, hcut, -⟩
    · simp [serve, answer, hask]
    · rw [h] at hcut
      cases hcut
  | cons item items ih =>
    rcases l.askToken_cases with ⟨hcut, -⟩ | ⟨blanks, first, rest, hrest, -, hcut, hask⟩
    · rw [h] at hcut
      cases hcut
    · obtain ⟨rfl, hitems⟩ := List.cons.inj (h.symm.trans hcut)
      have hserve := ih l.askToken.2 (by rw [hask]; exact hitems.symm)
      have hsize : l.askToken.2.cursor + byteSize l.askToken.2.rest = l.cursor + byteSize l.rest := by
        rw [hask, hrest]
        simp [past, Nat.add_assoc]
      rw [hsize] at hserve
      rw [List.length_cons, List.replicate_succ]
      simp only [serve, answer]
      rw [hserve, hask]
      rfl

/-! ## Layouts -/

/-- A way to write tokens down. -/
structure Layout where
  chunks : List Chunk
  /-- How many spaces stand behind the last token. -/
  trailing : Nat
  separate : chunks.IsChain Chunk.Separate

namespace Layout

def text (layout : Layout) : String := String.ofList (Chunk.join layout.chunks layout.trailing)

def tokens (layout : Layout) : List Token := layout.chunks.map (·.token)

theorem ofLine_text (layout : Layout) : Item.ofLine layout.text = Chunk.items 0 layout.chunks := by
  rw [Item.ofLine, text, String.toList_ofList]
  exact Chunk.cut_join layout.separate 0 layout.trailing

theorem tokenize_text (layout : Layout) : tokenize layout.text = .ok (layout.tokens ++ [.endOfInput]) := by
  have htokens := Chunk.map_token?_items 0 layout.chunks
  have hgood : (Chunk.items 0 layout.chunks).find? (·.token?.isNone) = none := by
    rw [List.find?_eq_none]
    intro item hitem hnone
    have hmem := List.mem_map_of_mem (f := Item.token?) hitem
    rw [htokens, Option.isNone_iff_eq_none.mp hnone] at hmem
    simp at hmem
  have hall : (Chunk.items 0 layout.chunks).filterMap Item.token? = layout.tokens := by
    calc (Chunk.items 0 layout.chunks).filterMap Item.token?
        = ((Chunk.items 0 layout.chunks).map Item.token?).filterMap id := by rw [List.filterMap_map]; rfl
      _ = layout.tokens := by
        rw [htokens, List.filterMap_map, tokens]
        simp
  rw [tokenize_eq_mapM, Item.mapM_read, layout.ofLine_text, hgood, hall]
  rfl

/-- A line that is read as tokens is a layout. -/
theorem exists_of_tokenize {line : String} {tokens : List Token} (h : tokenize line = .ok tokens) :
    ∃ layout : Layout, layout.text = line ∧ tokens = layout.tokens ++ [.endOfInput] := by
  have hgood : ∀ item ∈ Item.cut 0 line.toList, item.token? ≠ none := by
    rw [tokenize_eq_mapM, Item.mapM_read] at h
    cases hbad : (Item.ofLine line).find? (·.token?.isNone) with
    | none => simpa [List.find?_eq_none, Item.ofLine] using hbad
    | some bad =>
      rw [hbad] at h
      cases h
  obtain ⟨chunks, trailing, hchain, hjoin⟩ := Chunk.exists_join line.toList 0 hgood
  have htext : (Layout.mk chunks trailing hchain).text = line := by
    rw [text, ← hjoin, String.ofList_toList]
  refine ⟨⟨chunks, trailing, hchain⟩, htext, ?_⟩
  have htokenize := tokenize_text ⟨chunks, trailing, hchain⟩
  rw [htext, h] at htokenize
  exact Except.ok.inj htokenize

/-- Layouts are there for all lists of tokens that can be written. -/
theorem exists_tokens_eq_iff (tokens : List Token) :
    (∃ layout : Layout, layout.tokens = tokens) ↔
      .endOfInput ∉ tokens ∧ ∀ value, .integer value ∈ tokens → 0 ≤ value.toInt := by
  constructor
  · rintro ⟨layout, rfl⟩
    constructor
    · intro hend
      obtain ⟨c, -, hc⟩ := List.mem_map.mp hend
      exact c.written.ne_endOfInput hc
    · intro value hvalue
      obtain ⟨c, -, hc⟩ := List.mem_map.mp hvalue
      exact Token.WrittenAs.nonneg (hc ▸ c.written)
  · rintro ⟨hend, hnonneg⟩
    -- One space in front of each token will do.
    have hchunks : ∃ chunks : List Chunk, chunks.map (·.token) = tokens ∧ ∀ c ∈ chunks, c.spaces = 1 := by
      induction tokens with
      | nil => exact ⟨[], rfl, by simp⟩
      | cons token tokens ih =>
        have htoken : token ≠ .endOfInput := fun h => hend (by simp [h])
        obtain ⟨lexeme, hwritten⟩ := Token.exists_writtenAs htoken fun value h => hnonneg value (by simp [h])
        obtain ⟨chunks, htokens, hspaces⟩ :=
          ih (fun h => hend (by simp [h])) fun value h => hnonneg value (by simp [h])
        refine ⟨⟨1, token, lexeme, hwritten⟩ :: chunks, by simp [htokens], ?_⟩
        exact List.forall_mem_cons.mpr ⟨rfl, hspaces⟩
    obtain ⟨chunks, htokens, hspaces⟩ := hchunks
    have hchain : chunks.IsChain Chunk.Separate := by
      refine List.Pairwise.isChain (List.pairwise_of_forall_mem_list fun a _ b hb _ _ => ?_)
      rw [hspaces b hb]
      exact Nat.one_pos
    exact ⟨⟨chunks, 0, hchain⟩, htokens⟩

end Layout

/-- **Reading tokens undoes writing them down, in any layout, and nothing else can be read.** A line is read as
tokens exactly if it is a layout of them, with the end of the line behind the last one. Asked for one token
after the other, a lexer hands them out each where it was written, and then the end of the line. There are
layouts for all lists of tokens in which there is no end of a line and no negative number. -/
theorem tokenize_eq_ok_iff_layout :
    (∀ line tokens, tokenize line = .ok tokens ↔
      ∃ layout : Layout, layout.text = line ∧ tokens = layout.tokens ++ [.endOfInput]) ∧
    (∀ layout : Layout,
      ((Lexer.ofString layout.text).serve (.replicate (layout.tokens.length + 1) .token)).1 =
        (Chunk.pieces 0 layout.chunks).map .handed ++ [.ended layout.text.utf8ByteSize]) ∧
    ∀ tokens, (∃ layout : Layout, layout.tokens = tokens) ↔
      .endOfInput ∉ tokens ∧ ∀ value, .integer value ∈ tokens → 0 ≤ value.toInt := by
  refine ⟨fun line tokens => ⟨Layout.exists_of_tokenize, ?_⟩, fun layout => ?_, Layout.exists_tokens_eq_iff⟩
  · rintro ⟨layout, rfl, rfl⟩
    exact layout.tokenize_text
  · have hserve := Lexer.serve_tokens_eq (Lexer.ofString layout.text) layout.ofLine_text
    have hsize : (Lexer.ofString layout.text).cursor + byteSize (Lexer.ofString layout.text).rest =
        layout.text.utf8ByteSize := by
      rw [← byteSize_toList]
      exact Nat.zero_add _
    rw [Layout.tokens, List.length_map, ← Chunk.length_items 0 layout.chunks, hserve, hsize,
      ← Chunk.map_piece_items, List.map_map]
    rfl

end LineCalc
