/-!
# Attempts

Meshes may come from documents that nothing has checked, so an operation on one can end in three
ways: with its answer, with a refusal that names a cause, or because an index it followed names no
entry. `Attempt` keeps the three apart: an operation that stays inside its arrays is one that never
answers `Fault.outOfRange`.
-/
namespace CavityRepair

/-- Why an attempt gave no answer. -/
inductive Fault (ε : Type) where
  /-- The operation refused its input. -/
  | refused (cause : ε)
  /-- An index names no entry of the array it was looked up in, or a number leaves its word. -/
  | outOfRange
  deriving DecidableEq, Repr

/-- The outcome of an operation whose refusals are of type `ε`. -/
abbrev Attempt (ε α : Type) := Except (Fault ε) α

/-- Ends an attempt with a refusal. -/
def refuse {ε α : Type} (cause : ε) : Attempt ε α := .error (.refused cause)

/-- The entry a look-up found; a look-up that found none is out of range. -/
def found {ε α : Type} : Option α → Attempt ε α
  | some a => .ok a
  | none => .error .outOfRange

/-- Goes on if a condition holds and refuses otherwise. -/
def require {ε : Type} (p : Prop) [Decidable p] (cause : ε) : Attempt ε Unit :=
  if p then .ok () else refuse cause

/-- Refuses for a cause of another kind. -/
def withCause {ε δ α : Type} (f : ε → δ) : Attempt ε α → Attempt δ α
  | .ok a => .ok a
  | .error (.refused cause) => refuse (f cause)
  | .error .outOfRange => .error .outOfRange

variable {ε α : Type}

@[simp] theorem found_some (a : α) : (found (some a) : Attempt ε α) = .ok a := rfl

@[simp] theorem found_none : (found (none : Option α) : Attempt ε α) = .error .outOfRange := rfl

/-- A condition on an answer is met by the answer that there is. -/
theorem exists_of_any {x : Except ε α} {p : α → Prop} [DecidablePred p]
    (h : x.toOption.any (fun a => decide (p a)) = true) : ∃ a, x = .ok a ∧ p a := by
  cases x with
  | ok a => exact ⟨a, rfl, by simpa [Except.toOption] using h⟩
  | error _ => cases h

theorem exists_of_any? {o : Option α} {p : α → Prop} [DecidablePred p]
    (h : o.any (fun a => decide (p a)) = true) : ∃ a, o = some a ∧ p a := by
  simpa [Option.any_eq_true] using h

/-- Look-ups that all find something. -/
theorem mapM_eq_some_map {β : Type} {l : List α} {f : α → Option β} {g : α → β}
    (h : ∀ a ∈ l, f a = some (g a)) : l.mapM f = some (l.map g) := by
  induction l with
  | nil => rfl
  | cons a rest ih =>
    rw [List.mapM_cons, h a List.mem_cons_self, ih fun b hb => h b (List.mem_cons_of_mem _ hb)]
    rfl

theorem found_eq_ok_iff {o : Option α} {a : α} :
    (found o : Attempt ε α) = .ok a ↔ o = some a := by
  cases o <;> simp [found]

theorem found_eq_outOfRange_iff {o : Option α} :
    (found o : Attempt ε α) = .error .outOfRange ↔ o = none := by
  cases o <;> simp [found]

@[simp] theorem ok_bind {β : Type} (a : α) (f : α → Attempt ε β) : (Except.ok a >>= f) = f a := rfl

theorem bind_eq_ok_iff {β : Type} {x : Except ε α} {f : α → Except ε β} {b : β} :
    (x >>= f) = .ok b ↔ ∃ a, x = .ok a ∧ f a = .ok b := by
  cases x <;> simp [bind, Except.bind]

theorem bind_eq_error_iff {β : Type} {x : Except ε α} {f : α → Except ε β} {e : ε} :
    (x >>= f) = .error e ↔ x = .error e ∨ ∃ a, x = .ok a ∧ f a = .error e := by
  cases x <;> simp [bind, Except.bind]

/-- If what comes second always succeeds, an attempt fails as what comes first does. -/
theorem bind_eq_error_iff_of_ok {β : Type} {x : Except ε α} {f : α → Except ε β} {e : ε}
    (h : ∀ a, x = .ok a → ∃ b, (x >>= f) = .ok b) : (x >>= f) = .error e ↔ x = .error e := by
  cases x with
  | ok a =>
    obtain ⟨b, hb⟩ := h a rfl
    rw [hb]
    exact iff_of_false nofun nofun
  | error e' => exact ⟨fun h => by cases h; rfl, fun h => by cases h; rfl⟩

theorem mapError_eq_error_iff {δ : Type} {x : Except ε α} {f : ε → δ} {d : δ} :
    x.mapError f = .error d ↔ ∃ e, x = .error e ∧ f e = d := by
  constructor
  · intro h
    cases x with
    | ok b => cases h
    | error e =>
      cases h
      exact ⟨e, rfl, rfl⟩
  · rintro ⟨e, rfl, rfl⟩
    rfl

theorem mapError_eq_ok_iff {δ : Type} {x : Except ε α} {f : ε → δ} {a : α} :
    x.mapError f = .ok a ↔ x = .ok a := by
  constructor
  · intro h
    cases x with
    | ok b =>
      cases h
      rfl
    | error e => cases h
  · rintro rfl
    rfl

theorem withCause_eq_ok_iff {δ : Type} {f : ε → δ} {x : Attempt ε α} {a : α} :
    withCause f x = .ok a ↔ x = .ok a := by
  rcases x with (_ | _) | _ <;> simp [withCause, refuse]

theorem toOption_eq_some_iff {x : Except ε α} {a : α} : x.toOption = some a ↔ x = .ok a := by
  cases x <;> simp [Except.toOption]

theorem found_bind_eq_ok_iff {β : Type} {o : Option α} {f : α → Attempt ε β} {b : β} :
    (found o >>= f) = .ok b ↔ ∃ a, o = some a ∧ f a = .ok b := by
  simp only [bind_eq_ok_iff, found_eq_ok_iff]

theorem require_eq_ok_iff {p : Prop} [Decidable p] {cause : ε} :
    (require p cause : Attempt ε Unit) = .ok () ↔ p := by
  by_cases h : p <;> simp [require, refuse, h]

theorem require_bind_eq_ok_iff {p : Prop} [Decidable p] {cause : ε} {f : Unit → Attempt ε α}
    {a : α} : (require p cause >>= f) = .ok a ↔ p ∧ f () = .ok a := by
  by_cases h : p <;> simp [require, refuse, h, bind, Except.bind]

theorem require_bind_eq_refuse_iff {p : Prop} [Decidable p] {cause cause' : ε}
    {f : Unit → Attempt ε α} :
    (require p cause >>= f) = refuse cause' ↔
      ¬p ∧ cause = cause' ∨ p ∧ f () = refuse cause' := by
  by_cases h : p <;> simp [require, refuse, h, bind, Except.bind]

end CavityRepair
