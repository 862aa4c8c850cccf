/-
Carrying out effects. An effect that does not fail adds its bytes to its stream, and that is all
(`Effect.andThen`); one that fails adds no more than the first of them, and is the last
(`perform_cons_cases`). So where nothing fails, the streams hold all that was written to them, in
order (`perform_sound`). Where something does, they hold the beginning of it, and the result is a fault
(`perform_cases`); and an output that takes only so many bytes gets exactly so many
(`perform_limited`).
-/
import LineCalc.Session.Effect

namespace LineCalc

namespace Effect

/-- The bytes that an effect adds to the output. -/
def toOut : Effect → Bytes
  | write text => Utf8.encode text
  | _ => []

/-- The bytes that an effect adds to the error stream. -/
def toErr : Effect → Bytes
  | report text => Utf8.encode text
  | _ => []

def isFlush : Effect → Bool
  | flush => true
  | _ => false

def records : Effect → List Record
  | note record => [record]
  | _ => []

/-- What is seen of a session that has one more effect in front, which does not fail. -/
def andThen (effect : Effect) (o : Observed) : Observed :=
  ⟨effect.toOut ++ o.out, effect.toErr ++ o.err, o.flushes + effect.isFlush.toNat,
    effect.records ++ o.log, o.result⟩

end Effect

/-- All that effects write to the output. -/
def written (effects : List Effect) : Bytes := effects.flatMap Effect.toOut

/-- All that effects write to the error stream. -/
def reported (effects : List Effect) : Bytes := effects.flatMap Effect.toErr

/-- How often effects flush the output. -/
def flushed (effects : List Effect) : Nat := effects.countP Effect.isFlush

section Append

variable (a b : List Effect)

@[simp] theorem written_append : written (a ++ b) = written a ++ written b := List.flatMap_append

@[simp] theorem reported_append : reported (a ++ b) = reported a ++ reported b := List.flatMap_append

@[simp] theorem flushed_append : flushed (a ++ b) = flushed a + flushed b := List.countP_append

end Append

/-! ## Streams that never fail -/

theorem perform_sound_cons (result : Except Fault Summary) (effect : Effect) (effects : List Effect) :
    perform .sound result (effect :: effects) = effect.andThen (perform .sound result effects) := by
  cases effect <;> rfl

theorem perform_sound (result : Except Fault Summary) (effects : List Effect) :
    perform .sound result effects =
      ⟨written effects, reported effects, flushed effects, effects.flatMap Effect.records, result⟩ := by
  induction effects with
  | nil => rfl
  | cons effect effects ih =>
    rw [perform_sound_cons, ih]
    cases h : effect.isFlush <;> simp [Effect.andThen, written, reported, flushed, h]

theorem Script.perform_sound (script : Script) :
    script.perform .sound =
      ⟨written script.effects, reported script.effects, flushed script.effects,
        script.effects.flatMap Effect.records, script.result⟩ :=
  LineCalc.perform_sound script.result script.effects

/-! ## Streams that fail -/

theorem accept_cases (room : Option Nat) (bytes : Bytes) :
    (∃ left, accept room bytes = (bytes, some left)) ∨
      ∃ n, room = some n ∧ n < bytes.length ∧ accept room bytes = (bytes.take n, none) := by
  cases room with
  | none => exact .inl ⟨none, rfl⟩
  | some n =>
    by_cases h : bytes.length ≤ n
    · exact .inl ⟨some (n - bytes.length), by simp [accept, h, List.take_of_length_le h]⟩
    · exact .inr ⟨n, rfl, by omega, by simp [accept, h]⟩

/-- The session was cut short of what it would have written, by a fault. -/
structure Observed.CutShort (o : Observed) (out err : Bytes) : Prop where
  out : o.out <+: out
  err : o.err <+: err
  failed : ∃ fault, o.result = .error fault

/-- All that one effect can do: it is carried out, and the rest follows, or it fails. -/
theorem perform_cons_cases (streams : Streams) (result : Except Fault Summary) (effect : Effect)
    (effects : List Effect) :
    (∃ next, perform streams result (effect :: effects) = effect.andThen (perform next result effects)) ∨
      (perform streams result (effect :: effects)).CutShort effect.toOut effect.toErr := by
  cases effect with
  | write text =>
    rw [perform]
    rcases accept_cases streams.outRoom (Utf8.encode text) with ⟨left, h⟩ | ⟨n, -, -, h⟩
    · rw [h]
      exact .inl ⟨_, rfl⟩
    · rw [h]
      exact .inr ⟨List.take_prefix _ _, List.nil_prefix, _, rfl⟩
  | flush =>
    rw [perform]
    cases streams.flushFault? with
    | none => exact .inl ⟨_, rfl⟩
    | some fault => exact .inr ⟨List.nil_prefix, List.nil_prefix, _, rfl⟩
  | report text =>
    rw [perform]
    rcases accept_cases streams.errRoom (Utf8.encode text) with ⟨left, h⟩ | ⟨n, -, -, h⟩
    · rw [h]
      exact .inl ⟨_, rfl⟩
    · rw [h]
      exact .inr ⟨List.nil_prefix, List.take_prefix _ _, _, rfl⟩
  | note record => exact .inl ⟨streams, rfl⟩

/-- **Faults only truncate.** Either nothing failed, or the session was cut short. -/
theorem perform_cases (streams : Streams) (result : Except Fault Summary) (effects : List Effect) :
    perform streams result effects = perform .sound result effects ∨
      (perform streams result effects).CutShort (written effects) (reported effects) := by
  induction effects generalizing streams with
  | nil => exact .inl rfl
  | cons effect effects ih =>
    rcases perform_cons_cases streams result effect effects with ⟨next, h⟩ | h
    · rw [h, perform_sound_cons]
      rcases ih next with heq | hcut
      · exact .inl (by rw [heq])
      · exact .inr ⟨(List.prefix_append_right_inj _).mpr hcut.out,
          (List.prefix_append_right_inj _).mpr hcut.err, hcut.failed⟩
    · exact .inr ⟨h.out.trans (List.prefix_append _ _), h.err.trans (List.prefix_append _ _), h.failed⟩

/-- A script that does less than another, and fails, is another reason to be cut short. -/
theorem Script.perform_cases {script whole : Script}
    (h : script = whole ∨ script.effects <+: whole.effects ∧ ∃ fault, script.result = .error fault)
    (streams : Streams) :
    script.perform streams = whole.perform .sound ∨
      (script.perform streams).CutShort (written whole.effects) (reported whole.effects) := by
  have hperform := LineCalc.perform_cases streams script.result script.effects
  rcases h with rfl | ⟨⟨more, hmore⟩, hfault⟩
  · exact hperform
  · have hout : written script.effects <+: written whole.effects :=
      ⟨written more, by rw [← hmore, written_append]⟩
    have herr : reported script.effects <+: reported whole.effects :=
      ⟨reported more, by rw [← hmore, reported_append]⟩
    rcases hperform with hsame | hcut
    · rw [perform, hsame, LineCalc.perform_sound]
      exact .inr ⟨hout, herr, hfault⟩
    · exact .inr ⟨hcut.out.trans hout, hcut.err.trans herr, hcut.failed⟩

/-! ## Writing in pieces -/

theorem Utf8.encode_append (a b : String) : encode (a ++ b) = encode a ++ encode b := by
  simp [encode]

theorem accept_append (room : Option Nat) (a b : Bytes) :
    accept room (a ++ b) =
      match accept room a with
      | (taken, none) => (taken, none)
      | (taken, some left) => (taken ++ (accept left b).1, (accept left b).2) := by
  cases room with
  | none => rfl
  | some n =>
    by_cases h : a.length ≤ n
    · by_cases hb : b.length ≤ n - a.length
      · have hab : a.length + b.length ≤ n := by omega
        simp [accept, h, hb, hab, List.take_append, Nat.sub_sub]
      · have hab : ¬ a.length + b.length ≤ n := by omega
        simp [accept, h, hb, hab, List.take_append]
    · have hab : ¬ a.length + b.length ≤ n := by omega
      simp [accept, h, hab, List.take_append_of_le_length (show n ≤ a.length by omega)]

/-- It makes no difference whether a text is written at once or in pieces, on either stream. -/
theorem perform_pieces (streams : Streams) (result : Except Fault Summary) (a b : String)
    (effects : List Effect) :
    perform streams result (.write (a ++ b) :: effects) =
        perform streams result (.write a :: .write b :: effects) ∧
      perform streams result (.report (a ++ b) :: effects) =
        perform streams result (.report a :: .report b :: effects) := by
  simp only [perform, Utf8.encode_append, accept_append]
  constructor
  · rcases accept_cases streams.outRoom (Utf8.encode a) with ⟨left, h⟩ | ⟨n, -, -, h⟩
    · rcases accept_cases left (Utf8.encode b) with ⟨left', h'⟩ | ⟨n, -, -, h'⟩ <;> simp [h, h']
    · simp [h]
  · rcases accept_cases streams.errRoom (Utf8.encode a) with ⟨left, h⟩ | ⟨n, -, -, h⟩
    · rcases accept_cases left (Utf8.encode b) with ⟨left', h'⟩ | ⟨n, -, -, h'⟩ <;> simp [h, h']
    · simp [h]

/-! ## An output with a limit -/

theorem perform_limited_cons (room : Nat) (result : Except Fault Summary) (effect : Effect)
    (effects : List Effect) :
    (effect.toOut.length ≤ room ∧
      perform ⟨some room, none, none⟩ result (effect :: effects) =
        effect.andThen (perform ⟨some (room - effect.toOut.length), none, none⟩ result effects)) ∨
    (room < effect.toOut.length ∧
      (perform ⟨some room, none, none⟩ result (effect :: effects)).out = effect.toOut.take room ∧
      (perform ⟨some room, none, none⟩ result (effect :: effects)).result = .error .writeZero) := by
  cases effect with
  | write text =>
    by_cases h : (Utf8.encode text).length ≤ room
    · refine .inl ⟨h, ?_⟩
      simp [perform, accept, h, List.take_of_length_le h, Effect.andThen, Effect.toOut, Effect.toErr,
        Effect.isFlush, Effect.records]
    · refine .inr ⟨Nat.lt_of_not_le h, ?_⟩
      simp [perform, accept, h, Effect.toOut]
  | flush => exact .inl ⟨Nat.zero_le _, rfl⟩
  | report text => exact .inl ⟨Nat.zero_le _, rfl⟩
  | note record => exact .inl ⟨Nat.zero_le _, rfl⟩

/-- **An output that takes only so many bytes gets exactly so many**, and if there were more, it says
that it has no room. -/
theorem perform_limited (room : Nat) (result : Except Fault Summary) (effects : List Effect) :
    (perform ⟨some room, none, none⟩ result effects).out = (written effects).take room ∧
      (room < (written effects).length →
        (perform ⟨some room, none, none⟩ result effects).result = .error .writeZero) := by
  induction effects generalizing room with
  | nil => simp [perform, written]
  | cons effect effects ih =>
    have hwritten : written (effect :: effects) = effect.toOut ++ written effects := List.flatMap_cons
    rw [hwritten, List.length_append]
    rcases perform_limited_cons room result effect effects with ⟨hfits, h⟩ | ⟨hfull, hout, hresult⟩
    · obtain ⟨hout, hresult⟩ := ih (room - effect.toOut.length)
      rw [h, List.take_append, List.take_of_length_le hfits]
      refine ⟨?_, fun hmore => hresult (by omega)⟩
      rw [← hout]
      rfl
    · refine ⟨?_, fun _ => hresult⟩
      rw [hout, List.take_append_of_le_length (by omega)]

end LineCalc
