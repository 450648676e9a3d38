/-!
# Programs that may fail

A program over a state ends with a value or a failure, in a state that may be new.  Programs are put
together from parts: a part that ends with a value is followed by the next one (`run_bind_ok`), and the
failure of a part is that of the whole (`run_bind_error`).

What is known of the parts is put together in the same way.  Three things are told of programs here:
what they keep (`Keeps`), what part of a state they leave alone (`Leaves`), and in what state they end
if they fail (`FailsIn`).  The first two are about all states in which a program may start, and the
last one is about a single state, as a program may fail less often after what came before it.
-/

namespace Rollout

variable {σ τ ε α β : Type}

theorem run_bind_eq {x : StateM σ α} {f : α → StateM σ β} {a : α} {s s' : σ} (h : x s = (a, s')) :
    (x >>= f) s = f a s' := by
  show (match x s with | (a, s') => f a s') = _
  rw [h]

variable {x : ExceptT ε (StateM σ) α} {f : α → ExceptT ε (StateM σ) β} {s s' : σ}

theorem run_bind_ok {a : α} (h : x.run s = (.ok a, s')) : (x >>= f).run s = (f a).run s' := by
  rw [ExceptT.run_bind]
  exact run_bind_eq h

theorem run_bind_error {e : ε} (h : x.run s = (.error e, s')) :
    (x >>= f).run s = (.error e, s') := by
  rw [ExceptT.run_bind]
  exact run_bind_eq h

theorem run_liftM {y : StateM σ α} {a : α} (h : y s = (a, s')) :
    (liftM y : ExceptT ε (StateM σ) α).run s = (.ok a, s') := by
  show (match y s with | (a, s') => (Except.ok a, s')) = _
  rw [h]

/-! ## Keeping -/

/-- The program keeps a property of states. -/
def Keeps (P : σ → Prop) (x : ExceptT ε (StateM σ) α) : Prop := ∀ s, P s → P (x.run s).2

/-- The program leaves a part of the state as it is. -/
def Leaves (part : σ → τ) (x : ExceptT ε (StateM σ) α) : Prop := ∀ s, part (x.run s).2 = part s

section Keeping

variable {P : σ → Prop} {part : σ → τ}

theorem Keeps.run (h : Keeps P x) {r : Except ε α} (hrun : x.run s = (r, s')) (hs : P s) : P s' := by
  have := h s hs
  rwa [hrun] at this

theorem Keeps.bind (hx : Keeps P x) (hf : ∀ a, Keeps P (f a)) : Keeps P (x >>= f) := by
  intro s hs
  cases hrun : x.run s with
  | mk r s₁ =>
    have hs₁ : P s₁ := hx.run hrun hs
    cases r with
    | ok a =>
      rw [run_bind_ok hrun]
      exact hf a s₁ hs₁
    | error e =>
      rw [run_bind_error hrun]
      exact hs₁

theorem Keeps.pure (a : α) : Keeps P (Pure.pure a : ExceptT ε (StateM σ) α) := fun _ hs => hs

/-- What follows a result is run only if the result is a value. -/
theorem Keeps.of_except {r : Except ε α} (h : ∀ a, r = .ok a → Keeps P (f a)) :
    Keeps P (ExceptT.mk (Pure.pure r) >>= f) := by
  cases r with
  | ok a => exact h a rfl
  | error e => exact fun _ hs => hs

theorem Leaves.run (h : Leaves part x) {r : Except ε α} (hrun : x.run s = (r, s')) :
    part s' = part s := by
  have := h s
  rwa [hrun] at this

theorem Leaves.of_run {result : σ → Except ε α} {next : σ → σ}
    (h : ∀ s, x.run s = (result s, next s)) (hnext : ∀ s, part (next s) = part s) :
    Leaves part x := by
  intro s
  rw [h s]
  exact hnext s

/-- What is true of a part is kept with it. -/
theorem Leaves.keeps (h : Leaves part x) (Q : τ → Prop) : Keeps (fun s => Q (part s)) x := by
  intro s hs
  rw [h s]
  exact hs

theorem Leaves.bind (hx : Leaves part x) (hf : ∀ a, Leaves part (f a)) : Leaves part (x >>= f) :=
  fun s => Keeps.bind (hx.keeps (· = part s)) (fun a => (hf a).keeps (· = part s)) s rfl

end Keeping

/-! ## Failing -/

/-- If the program fails, it does so in a state of the given kind. -/
def FailsIn (P : σ → Prop) (x : ExceptT ε (StateM σ) α) (s : σ) : Prop :=
  ∀ e s', x.run s = (.error e, s') → P s'

section Failing

variable {P : σ → Prop} {part : σ → τ}

theorem failsIn_of_ok {a : α} (h : x.run s = (.ok a, s')) : FailsIn P x s := by
  intro e s₁ hrun
  cases h.symm.trans hrun

theorem failsIn_pure (a : α) : FailsIn P (pure a : ExceptT ε (StateM σ) α) s :=
  failsIn_of_ok rfl

/-- What is lifted does not fail. -/
theorem failsIn_liftM (y : StateM σ α) : FailsIn P (liftM y : ExceptT ε (StateM σ) α) s :=
  failsIn_of_ok (run_liftM rfl)

theorem FailsIn.bind (hx : FailsIn P x s)
    (hf : ∀ a s', x.run s = (.ok a, s') → FailsIn P (f a) s') : FailsIn P (x >>= f) s := by
  intro e s' h
  cases hrun : x.run s with
  | mk r s₁ =>
    cases r with
    | ok a =>
      rw [run_bind_ok hrun] at h
      exact hf a s₁ hrun e s' h
    | error e₁ =>
      rw [run_bind_error hrun] at h
      cases h
      exact hx e s' hrun

theorem Leaves.failsIn (hx : Leaves part x) (hP : ∀ s', part s' = part s → P s') : FailsIn P x s :=
  fun _ s' hrun => hP s' (hx.run hrun)

/-- What leaves alone all that matters may come first. -/
theorem Leaves.failsIn_bind (hx : Leaves part x) (hP : ∀ s', part s' = part s → P s')
    (hf : ∀ a s', part s' = part s → FailsIn P (f a) s') : FailsIn P (x >>= f) s :=
  (hx.failsIn hP).bind fun a s' hrun => hf a s' (hx.run hrun)

end Failing

end Rollout
