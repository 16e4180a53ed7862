import RiscvEmulator.Library.ExceptList

/-!
# Related outcomes

Two fallible computations have related outcomes if both end in the same error, or both
return and what they return is related. The rules are those of a relational logic: one for
each way a computation is put together.
-/
namespace RiscvEmulator.Library.ExceptRelation

variable {ε α β γ δ : Type}

inductive Related (R : α → β → Prop) : Except ε α → Except ε β → Prop where
  | ok {a : α} {b : β} (h : R a b) : Related R (.ok a) (.ok b)
  | error (e : ε) : Related R (.error e) (.error e)

variable {R : α → β → Prop} {S : γ → δ → Prop} {x : Except ε α} {y : Except ε β}

theorem Related.bind {f : α → Except ε γ} {g : β → Except ε δ} (hxy : Related R x y)
    (hfg : ∀ a b, R a b → Related S (f a) (g b)) : Related S (x >>= f) (y >>= g) := by
  cases hxy with
  | ok h => exact hfg _ _ h
  | error e => exact .error e

theorem Related.mono {R' : α → β → Prop} (h : Related R x y) (himp : ∀ a b, R a b → R' a b) :
    Related R' x y := by
  cases h with
  | ok h => exact .ok (himp _ _ h)
  | error e => exact .error e

theorem Related.of_eq (h : Related R x y) :
    Related (fun a b => x = .ok a ∧ y = .ok b ∧ R a b) x y := by
  cases h with
  | ok h => exact .ok ⟨rfl, rfl, h⟩
  | error e => exact .error e

/-- The second computation returns if the first one does. -/
theorem Related.exists_ok {a : α} (h : Related R x y) (hx : x = .ok a) :
    ∃ b, y = .ok b ∧ R a b := by
  subst hx
  cases h with
  | ok h => exact ⟨_, rfl, h⟩

theorem Related.of_error {e : ε} (h : Related R x y) (hx : x = .error e) : y = .error e := by
  subst hx
  cases h with
  | error e => rfl

end RiscvEmulator.Library.ExceptRelation
