/-
A session without a prompt, accounted for by the texts that it deals with: what it writes comes from the texts
that give a result, what it reports from those that do not, and it has counted both (`Session.Accounts`). This
holds of every session that ends well, whatever its policy (`Session.converse_accounts`).

Which texts give a result is said without the session (`Session.successes`): all that do, or, if the first
failure ends the session, those before it.
-/
import LineCalc.Proofs.Policy

namespace LineCalc

namespace Session

/-! ## Texts -/

/-- The texts among some lines, without those of spaces. -/
def texts (lines : List Bytes) : List String :=
  (lines.filterMap Utf8.decode?).filter (!isBlankLine ·)

/-- The texts that give a result, as far as the session gets. -/
def successes (s : Session) (texts : List String) : List String :=
  match s.onError with
  | .proceed => texts.filter s.mode.accepts
  | .exit => texts.takeWhile s.mode.accepts

theorem successes_nil (s : Session) : s.successes [] = [] := by
  unfold successes
  cases s.onError <;> rfl

theorem successes_cons_of_accepts {s : Session} {text : String} (h : s.mode.accepts text = true)
    (texts : List String) : s.successes (text :: texts) = text :: s.successes texts := by
  unfold successes
  cases s.onError with
  | proceed => exact List.filter_cons_of_pos h
  | exit => exact List.takeWhile_cons_of_pos h

theorem successes_cons_of_not_accepts {s : Session} {text : String} (h : s.mode.accepts text = false)
    (texts : List String) :
    s.successes (text :: texts) = if s.onError = .exit then [] else s.successes texts := by
  unfold successes
  cases s.onError with
  | proceed => simp [h]
  | exit => simp [h]

/-! ## One text -/

/-- All that a line can lead to: it is no text, it is skipped, or it is one of the texts and gives a result, or
none. -/
theorem turn_cases (s : Session) (line : Bytes) (lines : List Bytes) :
    s.turn line = .broken ∨
    (s.turn line = .next [] .zero ∧ texts (line :: lines) = texts lines) ∨
    ∃ text, texts (line :: lines) = text :: texts lines ∧
      ((s.mode.accepts text = true ∧ s.turn line = .next (s.respond text).effects ⟨1, 0⟩) ∨
      (s.mode.accepts text = false ∧
        s.turn line =
          if s.onError = .exit then .last (s.respond text).effects ⟨0, 1⟩
          else .next (s.respond text).effects ⟨0, 1⟩)) := by
  unfold texts
  cases turns line with
  | broken _ turn_eq => exact .inl (turn_eq s)
  | skipped text decoded blank turn_eq =>
    rw [List.filterMap_cons_some decoded]
    exact .inr (.inl ⟨turn_eq s, List.filter_cons_of_neg (by simp [blank])⟩)
  | answered text decoded notBlank turn_eq =>
    rw [List.filterMap_cons_some decoded, turn_eq]
    refine .inr (.inr ⟨text, List.filter_cons_of_pos (by simp [notBlank]), ?_⟩)
    rcases (s.respond_cases text).2 with ⟨haccepts, hsummary, -⟩ | ⟨haccepts, hsummary, -⟩
    · exact .inl ⟨haccepts, by simp [hsummary]⟩
    · exact .inr ⟨haccepts, by simp [hsummary]⟩

/-! ## The account -/

/-- The effects are those of these texts, in order, and `total` counts them on from `before`. -/
structure Accounts (s : Session) (successes failures : List String) (before : Summary)
    (effects : List Effect) (total : Summary) : Prop where
  accepted : ∀ text ∈ successes, s.mode.accepts text = true
  rejected : ∀ text ∈ failures, s.mode.accepts text = false
  written_eq : written effects = successes.flatMap fun text => written (s.respond text).effects
  reported_eq : reported effects = failures.flatMap fun text => reported (s.respond text).effects
  evaluated_eq : total.evaluated = before.evaluated + successes.length
  failed_eq : total.failed = before.failed + failures.length

theorem accounts_nil (s : Session) (summary : Summary) {effects : List Effect}
    (hwritten : written effects = []) (hreported : reported effects = []) :
    s.Accounts [] [] summary effects summary where
  accepted := by simp
  rejected := by simp
  written_eq := hwritten
  reported_eq := hreported
  evaluated_eq := rfl
  failed_eq := rfl

section Texts

variable {s : Session} {successes failures : List String} {before total : Summary} {effects : List Effect}
  {text : String}

theorem Accounts.success (h : s.Accounts successes failures (before.add ⟨1, 0⟩) effects total)
    (haccepts : s.mode.accepts text = true) :
    s.Accounts (text :: successes) failures before ((s.respond text).effects ++ effects) total := by
  have hreported : reported (s.respond text).effects = [] := by
    rcases (s.respond_cases text).2 with ⟨-, -, hreported⟩ | ⟨hrejected, -⟩
    · exact hreported
    · cases haccepts.symm.trans hrejected
  exact {
    accepted := List.forall_mem_cons.mpr ⟨haccepts, h.accepted⟩
    rejected := h.rejected
    written_eq := by rw [written_append, h.written_eq, List.flatMap_cons]
    reported_eq := by rw [reported_append, hreported, List.nil_append, h.reported_eq]
    evaluated_eq := by
      rw [h.evaluated_eq, Summary.add, List.length_cons]
      show before.evaluated + 1 + _ = _
      omega
    failed_eq := h.failed_eq }

theorem Accounts.failure (h : s.Accounts successes failures (before.add ⟨0, 1⟩) effects total)
    (hrejects : s.mode.accepts text = false) :
    s.Accounts successes (text :: failures) before ((s.respond text).effects ++ effects) total := by
  have hwritten : written (s.respond text).effects = [] := by
    rcases (s.respond_cases text).2 with ⟨haccepted, -⟩ | ⟨-, -, hwritten, -⟩
    · cases haccepted.symm.trans hrejects
    · exact hwritten
  exact {
    accepted := h.accepted
    rejected := List.forall_mem_cons.mpr ⟨hrejects, h.rejected⟩
    written_eq := by rw [written_append, hwritten, List.nil_append, h.written_eq]
    reported_eq := by rw [reported_append, h.reported_eq, List.flatMap_cons]
    evaluated_eq := h.evaluated_eq
    failed_eq := by
      rw [h.failed_eq, Summary.add, List.length_cons]
      show before.failed + 1 + _ = _
      omega }

end Texts

/-- **A session that ends well is accounted for by its texts.** -/
theorem converse_accounts {s : Session} (hprompt : s.prompt? = none) {fault? : Option Fault}
    {lines : List Bytes} {before total : Summary}
    (h : (s.converse fault? lines before).result = .ok total) :
    ∃ failures, s.Accounts (s.successes (texts lines)) failures before
      (s.converse fault? lines before).effects total := by
  have hask := ask_eq_nil hprompt
  induction lines generalizing before with
  | nil =>
    cases fault? with
    | none =>
      obtain rfl : before = total := Except.ok.inj h
      rw [converse, hask]
      exact ⟨[], s.successes_nil ▸ s.accounts_nil before rfl rfl⟩
    | some fault => cases h
  | cons line lines ih =>
    rw [converse_cons, hask] at h ⊢
    rcases s.turn_cases line lines with
      hturn | ⟨hturn, htexts⟩ | ⟨text, htexts, ⟨haccepts, hturn⟩ | ⟨hrejects, hturn⟩⟩
    · rw [hturn] at h
      cases h
    · rw [hturn] at h ⊢
      rw [htexts]
      exact ih h
    · rw [hturn] at h ⊢
      rw [htexts, successes_cons_of_accepts haccepts]
      obtain ⟨failures, haccounts⟩ := ih h
      exact ⟨failures, haccounts.success haccepts⟩
    · rw [htexts, successes_cons_of_not_accepts hrejects]
      by_cases hexit : s.onError = .exit
      · rw [if_pos hexit] at hturn ⊢
        rw [hturn] at h ⊢
        obtain rfl : before.add ⟨0, 1⟩ = total := Except.ok.inj h
        exact ⟨[text], (s.accounts_nil _ rfl rfl).failure hrejects⟩
      · rw [if_neg hexit] at hturn ⊢
        rw [hturn] at h ⊢
        obtain ⟨failures, haccounts⟩ := ih h
        exact ⟨text :: failures, haccounts.failure hrejects⟩

theorem respond_accounts (s : Session) (text : String) :
    ∃ failures, s.Accounts (s.successes [text]) failures .zero (s.respond text).effects
      (s.respond text).summary := by
  rcases (s.respond_cases text).2 with ⟨haccepts, hsummary, -⟩ | ⟨hrejects, hsummary, -⟩
  · have haccounts : s.Accounts [text] [] .zero ((s.respond text).effects ++ []) ⟨1, 0⟩ :=
      (s.accounts_nil _ rfl rfl).success haccepts
    rw [List.append_nil] at haccounts
    rw [successes_cons_of_accepts haccepts, s.successes_nil, hsummary]
    exact ⟨[], haccounts⟩
  · have haccounts : s.Accounts [] [text] .zero ((s.respond text).effects ++ []) ⟨0, 1⟩ :=
      (s.accounts_nil _ rfl rfl).failure hrejects
    rw [List.append_nil] at haccounts
    rw [successes_cons_of_not_accepts hrejects, s.successes_nil, ite_self, hsummary]
    exact ⟨[text], haccounts⟩

end Session

end LineCalc
