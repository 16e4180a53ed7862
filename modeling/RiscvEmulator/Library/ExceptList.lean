import Mathlib.Data.List.Forall2

/-!
# Sequencing fallible functions

What `bind` and `List.mapM` in `Except` return: a sequence succeeds when each step does,
and otherwise its error is the error of the first step that fails.
-/
namespace RiscvEmulator.Library.ExceptList

variable {ε α β : Type} {f : α → Except ε β}

theorem bind_ok {x : Except ε α} {b : β} (h : (x >>= f) = .ok b) :
    ∃ a, x = .ok a ∧ f a = .ok b := by
  cases x with
  | error e => cases h
  | ok a => exact ⟨a, rfl, h⟩

theorem bind_error {x : Except ε α} {e : ε} (h : (x >>= f) = .error e) :
    x = .error e ∨ ∃ a, x = .ok a ∧ f a = .error e := by
  cases x with
  | error e' => exact .inl (congrArg Except.error (Except.error.inj h))
  | ok a => exact .inr ⟨a, rfl, h⟩

@[simp] theorem ok_bind (a : α) : ((.ok a : Except ε α) >>= f) = f a := rfl

@[simp] theorem pure_ne_error (a : α) (e : ε) : (pure a : Except ε α) ≠ .error e := nofun

/-- A sequence does not end in an error that neither of its parts ends in. -/
theorem bind_ne_error {x : Except ε α} {e : ε} (hx : x ≠ .error e) (hf : ∀ a, f a ≠ .error e) :
    (x >>= f) ≠ .error e := by
  intro h
  rcases bind_error h with hfirst | ⟨a, -, hsecond⟩
  · exact hx hfirst
  · exact hf a hsecond

theorem mapM_ok_iff {xs : List α} {ys : List β} :
    xs.mapM f = .ok ys ↔ List.Forall₂ (fun x y => f x = .ok y) xs ys := by
  induction xs generalizing ys with
  | nil =>
    constructor
    · intro h
      cases h
      exact .nil
    · intro h
      cases h
      rfl
  | cons x xs ih =>
    rw [List.mapM_cons]
    constructor
    · intro h
      cases hx : f x with
      | error e => rw [hx] at h; cases h
      | ok y =>
        cases hrest : xs.mapM f with
        | error e => rw [hx, hrest] at h; cases h
        | ok rest =>
          rw [hx, hrest] at h
          cases h
          exact .cons hx (ih.mp hrest)
    · intro h
      cases h with
      | cons hx hrest => rw [hx, ih.mpr hrest]; rfl

theorem mapM_ok_iff_map {xs : List α} {ys : List β} :
    xs.mapM f = .ok ys ↔ xs.map f = ys.map Except.ok := by
  rw [mapM_ok_iff, ← List.forall₂_eq_eq_eq, List.forall₂_map_left_iff, List.forall₂_map_right_iff]

/-- Elements that all give the same give so many of it. -/
theorem mapM_ok_replicate {xs : List α} {y : β} (h : ∀ x ∈ xs, f x = .ok y) :
    xs.mapM f = .ok (List.replicate xs.length y) := by
  rw [mapM_ok_iff_map, List.map_replicate]
  exact List.map_eq_replicate_iff.mpr h

/-- A sequence succeeds when each element does. -/
theorem mapM_accepts_iff {xs : List α} :
    (∃ ys, xs.mapM f = .ok ys) ↔ ∀ x ∈ xs, ∃ y, f x = .ok y := by
  induction xs with
  | nil => exact ⟨fun _ => by simp, fun _ => ⟨[], rfl⟩⟩
  | cons x xs ih =>
    rw [List.forall_mem_cons, ← ih, List.mapM_cons]
    constructor
    · rintro ⟨ys, h⟩
      obtain ⟨y, hy, h⟩ := bind_ok h
      obtain ⟨rest, hrest, -⟩ := bind_ok h
      exact ⟨⟨y, hy⟩, rest, hrest⟩
    · rintro ⟨⟨y, hy⟩, rest, hrest⟩
      exact ⟨y :: rest, by rw [hy, hrest]; rfl⟩

theorem mapM_append_ok_iff {left right : List α} {ys : List β} :
    (left ++ right).mapM f = .ok ys ↔
      ∃ first second, left.mapM f = .ok first ∧ right.mapM f = .ok second ∧
        ys = first ++ second := by
  rw [List.mapM_append]
  constructor
  · intro h
    obtain ⟨first, hfirst, h⟩ := bind_ok h
    obtain ⟨second, hsecond, h⟩ := bind_ok h
    exact ⟨first, second, hfirst, hsecond, (Except.ok.inj h).symm⟩
  · rintro ⟨first, second, hfirst, hsecond, rfl⟩
    rw [hfirst, hsecond]
    rfl

/-- A sequence that succeeds equals another when their elements agree one by one. -/
theorem mapM_eq_iff_map {xs xs' : List α} (h : ∀ x ∈ xs, ∃ y, f x = .ok y) :
    xs.mapM f = xs'.mapM f ↔ xs.map f = xs'.map f := by
  obtain ⟨ys, hys⟩ := mapM_accepts_iff.mpr h
  rw [hys, mapM_ok_iff_map.mp hys]
  constructor
  · intro heq
    exact (mapM_ok_iff_map.mp heq.symm).symm
  · intro heq
    exact (mapM_ok_iff_map.mpr heq.symm).symm

/-- Maps by functions that tell the same elements apart tell the same lists apart. -/
theorem map_eq_iff_map_eq {γ δ : Type} {f : α → γ} {g : α → δ} {xs ys : List α}
    (h : ∀ x ∈ xs, ∀ y ∈ ys, f x = f y ↔ g x = g y) :
    xs.map f = ys.map f ↔ xs.map g = ys.map g := by
  induction xs generalizing ys with
  | nil => cases ys <;> simp
  | cons x xs ih =>
    cases ys with
    | nil => simp
    | cons y ys =>
      have hhead := h x (by simp) y (by simp)
      have htail : xs.map f = ys.map f ↔ xs.map g = ys.map g :=
        ih fun a ha b hb => h a (by simp [ha]) b (by simp [hb])
      simp only [List.map_cons, List.cons.injEq]
      exact and_congr hhead htail

theorem mapM_cons_of_error {x : α} {xs : List α} {e : ε} (hx : f x = .error e) :
    (x :: xs).mapM f = .error e := by
  rw [List.mapM_cons, hx]
  rfl

theorem mapM_cons_error_iff {x : α} {xs : List α} {y : β} {e : ε} (hx : f x = .ok y) :
    (x :: xs).mapM f = .error e ↔ xs.mapM f = .error e := by
  rw [List.mapM_cons, hx, ok_bind]
  cases xs.mapM f with
  | error e' => exact Iff.rfl
  | ok rest => simp [pure, Except.pure]

theorem mapM_of_first_error {before after : List α} {x : α} {e : ε}
    (hbefore : ∀ y ∈ before, ∃ z, f y = .ok z) (hx : f x = .error e) :
    (before ++ x :: after).mapM f = .error e := by
  induction before with
  | nil => exact mapM_cons_of_error hx
  | cons y before ih =>
    obtain ⟨z, hz⟩ := hbefore y List.mem_cons_self
    rw [List.cons_append, mapM_cons_error_iff hz]
    exact ih fun y hy => hbefore y (List.mem_cons_of_mem _ hy)

theorem first_error_of_mapM {xs : List α} {e : ε} (h : xs.mapM f = .error e) :
    ∃ before x after, xs = before ++ x :: after ∧ (∀ y ∈ before, ∃ z, f y = .ok z) ∧
      f x = .error e := by
  induction xs with
  | nil => cases h
  | cons x xs ih =>
    cases hx : f x with
    | error e' =>
      rw [mapM_cons_of_error hx] at h
      cases h
      exact ⟨[], x, xs, rfl, by simp, hx⟩
    | ok y =>
      obtain ⟨before, z, after, rfl, hbefore, hz⟩ := ih ((mapM_cons_error_iff hx).mp h)
      refine ⟨x :: before, z, after, rfl, ?_, hz⟩
      intro a ha
      rcases List.mem_cons.mp ha with rfl | ha
      · exact ⟨y, hx⟩
      · exact hbefore a ha

/-- An error is the error of the first element that fails. -/
theorem mapM_error_iff {xs : List α} {e : ε} :
    xs.mapM f = .error e ↔
      ∃ before x after, xs = before ++ x :: after ∧ (∀ y ∈ before, ∃ z, f y = .ok z) ∧
        f x = .error e := by
  constructor
  · exact first_error_of_mapM
  · rintro ⟨before, x, after, rfl, hbefore, hx⟩
    exact mapM_of_first_error hbefore hx

end RiscvEmulator.Library.ExceptList
