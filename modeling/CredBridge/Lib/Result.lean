import Mathlib

/-! # Computations that can fail

What a computation in `Except` did when it succeeded, read off its shape: a sequence succeeds when its
parts do one after the other, a guard when its condition does not hold, and a lookup when it finds
something. -/

namespace Result
variable {ε α β : Type _}

/-- Fail with `e` when `c` holds. -/
def throwIf (c : Prop) [Decidable c] (e : ε) : Except ε Unit :=
  if c then .error e else .ok ()

/-- The value that was found, or the error `e`. -/
def orThrow (o : Option α) (e : ε) : Except ε α :=
  match o with
  | some a => .ok a
  | none => .error e

theorem bind_eq_ok {x : Except ε α} {f : α → Except ε β} {b : β} :
    x >>= f = .ok b ↔ ∃ a, x = .ok a ∧ f a = .ok b := by
  cases x with
  | error e => exact ⟨nofun, nofun⟩
  | ok a =>
    refine ⟨fun h => ⟨a, rfl, h⟩, fun ⟨a', ha, h⟩ => ?_⟩
    cases ha
    exact h

theorem pure_eq_ok {a b : α} : (pure a : Except ε α) = .ok b ↔ a = b :=
  ⟨fun h => Except.ok.inj h, fun h => h ▸ rfl⟩

theorem map_eq_ok {x : Except ε α} {f : α → β} {b : β} : f <$> x = .ok b ↔ ∃ a, x = .ok a ∧ f a = b := by
  cases x with
  | error e => exact ⟨nofun, nofun⟩
  | ok a =>
    refine ⟨fun h => ⟨a, rfl, Except.ok.inj h⟩, fun ⟨a', ha, h⟩ => ?_⟩
    cases ha
    exact congrArg Except.ok h

theorem bind_eq_error {x : Except ε α} {f : α → Except ε β} {e : ε} :
    x >>= f = .error e ↔ x = .error e ∨ ∃ a, x = .ok a ∧ f a = .error e := by
  cases x with
  | error e' =>
    refine ⟨fun h => .inl ?_, fun h => ?_⟩
    · exact congrArg Except.error (Except.error.inj h)
    · rcases h with h | ⟨_, h, -⟩
      · exact congrArg Except.error (Except.error.inj h)
      · cases h
  | ok a =>
    refine ⟨fun h => .inr ⟨a, rfl, h⟩, fun h => ?_⟩
    rcases h with h | ⟨_, ha, h⟩
    · cases h
    · cases ha
      exact h

theorem bind_error_of_ok {x : Except ε α} {f : α → Except ε β} {a : α} {e : ε} (hx : x = .ok a)
    (h : x >>= f = .error e) : f a = .error e := by
  rw [hx] at h
  exact h

theorem throwIf_eq_ok {c : Prop} [Decidable c] {e : ε} {u : Unit} : throwIf c e = .ok u ↔ ¬c := by
  unfold throwIf
  split
  · exact ⟨nofun, fun h => absurd ‹c› h⟩
  · exact ⟨fun _ => ‹¬c›, fun _ => rfl⟩

theorem orThrow_eq_ok {o : Option α} {e : ε} {a : α} : orThrow o e = .ok a ↔ o = some a := by
  cases o with
  | none => exact ⟨nofun, nofun⟩
  | some b => exact ⟨fun h => congrArg some (Except.ok.inj h), fun h => congrArg Except.ok (Option.some.inj h)⟩

theorem toOption_eq_some {x : Except ε α} {a : α} : x.toOption = some a ↔ x = .ok a := by
  cases x with
  | error e => exact ⟨nofun, nofun⟩
  | ok b => exact ⟨fun h => congrArg Except.ok (Option.some.inj h), fun h => congrArg some (Except.ok.inj h)⟩

theorem throwIf_bind_eq_ok {c : Prop} [Decidable c] {e : ε} {f : Unit → Except ε β} {b : β} :
    throwIf c e >>= f = .ok b ↔ ¬c ∧ f () = .ok b := by
  rw [bind_eq_ok]
  exact ⟨fun ⟨_, hc, h⟩ => ⟨throwIf_eq_ok.mp hc, h⟩, fun ⟨hc, h⟩ => ⟨(), throwIf_eq_ok.mpr hc, h⟩⟩

/-- An error other than the guard's own comes from what follows the guard. -/
theorem throwIf_bind_eq_error {c : Prop} [Decidable c] {e e' : ε} {f : Unit → Except ε β} (hne : e ≠ e')
    (h : throwIf c e >>= f = .error e') : ¬c ∧ f () = .error e' := by
  rcases bind_eq_error.mp h with h | ⟨_, hc, h⟩
  · unfold throwIf at h
    split at h
    · exact absurd (Except.error.inj h) hne
    · cases h
  · exact ⟨throwIf_eq_ok.mp hc, h⟩

theorem orThrow_bind_eq_ok {o : Option α} {e : ε} {f : α → Except ε β} {b : β} :
    orThrow o e >>= f = .ok b ↔ ∃ a, o = some a ∧ f a = .ok b := by
  simp only [bind_eq_ok, orThrow_eq_ok]

theorem toOption_isSome {x : Except ε α} : x.toOption.isSome = true ↔ ∃ a, x = .ok a := by
  cases x with
  | error e => exact ⟨nofun, nofun⟩
  | ok a => exact ⟨fun _ => ⟨a, rfl⟩, fun _ => rfl⟩

end Result
