import Mathlib

/-!
# Stateful programs that can fail

An operation on a state that keeps its effects when it fails is an `EStateM`. This module
gives the rules by which a fact about single effects becomes a fact about a whole operation:

* `after` — the state an operation leaves, whether it succeeded or failed
* `Evolves` — a preorder holds between the state before and the state after
* `query` — a check that reads the state and does not change it

Facts that a step establishes for the rest of the operation come with the rule for `>>=`,
which hands over the equation of the first part.
-/

namespace Program

variable {ε σ α β : Type}

/-- The state `m` leaves, whether it succeeds or fails. -/
def after (m : EStateM ε σ α) (s : σ) : σ :=
  match m s with
  | .ok _ s' => s'
  | .error _ s' => s'

/-- A check that reads the state and does not change it. -/
def query (f : σ → Except ε α) : EStateM ε σ α := fun s =>
  match f s with
  | .ok a => .ok a s
  | .error e => .error e s

/-- A check that needs no state. -/
def check (x : Except ε α) : EStateM ε σ α := query fun _ => x

section

variable {m : Type → Type} [Monad m]

/-- Fail with `e` where `c` holds. -/
def refuse [MonadExcept ε m] (c : Prop) [Decidable c] (e : ε) : m PUnit :=
  if c then throw e else pure ⟨⟩

/-- The value of an option, or a failure with `e`. -/
def okOr [MonadExcept ε m] (o : Option α) (e : ε) : m α :=
  match o with
  | some a => pure a
  | none => throw e

/-- Run `x` where `c` holds. -/
def onlyIf (c : Prop) [Decidable c] (x : m PUnit) : m PUnit := if c then x else pure ⟨⟩

end

/-! ## Results -/

theorem after_ok {m : EStateM ε σ α} {s s' : σ} {a : α} (h : m s = .ok a s') : after m s = s' := by
  rw [after, h]

theorem after_error {m : EStateM ε σ α} {s s' : σ} {e : ε} (h : m s = .error e s') :
    after m s = s' := by
  rw [after, h]

@[simp] theorem after_pure {a : α} {s : σ} : after (pure a : EStateM ε σ α) s = s := rfl

@[simp] theorem after_throw {e : ε} {s : σ} : after (throw e : EStateM ε σ α) s = s := rfl

@[simp] theorem after_get {s : σ} : after (get : EStateM ε σ σ) s = s := rfl

@[simp] theorem after_set {s t : σ} : after (set t : EStateM ε σ PUnit) s = t := rfl

@[simp] theorem after_modify {f : σ → σ} {s : σ} :
    after (modify f : EStateM ε σ PUnit) s = f s := rfl

@[simp] theorem after_query {f : σ → Except ε α} {s : σ} : after (query f) s = s := by
  unfold after query
  cases f s <;> rfl

theorem bind_eq (x : EStateM ε σ α) (f : α → EStateM ε σ β) (s : σ) :
    (x >>= f) s = match x s with
      | .ok a s' => f a s'
      | .error e s' => .error e s' := rfl

theorem bind_ok {x : EStateM ε σ α} {f : α → EStateM ε σ β} {s t : σ} {b : β} :
    (x >>= f) s = .ok b t ↔ ∃ a s', x s = .ok a s' ∧ f a s' = .ok b t := by
  rw [bind_eq]
  cases x s <;> simp

theorem bind_error {x : EStateM ε σ α} {f : α → EStateM ε σ β} {s t : σ} {e : ε} :
    (x >>= f) s = .error e t ↔
      x s = .error e t ∨ ∃ a s', x s = .ok a s' ∧ f a s' = .error e t := by
  rw [bind_eq]
  cases x s <;> simp

@[simp] theorem pure_ok {a b : α} {s t : σ} :
    (pure a : EStateM ε σ α) s = .ok b t ↔ a = b ∧ s = t := by
  change EStateM.Result.ok a s = .ok b t ↔ _
  simp

@[simp] theorem pure_error {a : α} {s t : σ} {e : ε} :
    ¬ (pure a : EStateM ε σ α) s = .error e t := by
  change ¬ EStateM.Result.ok a s = .error e t
  simp

@[simp] theorem throw_ok {e : ε} {a : α} {s t : σ} :
    ¬ (throw e : EStateM ε σ α) s = .ok a t := by
  change ¬ EStateM.Result.error e s = .ok a t
  simp

@[simp] theorem throw_error {e e' : ε} {s t : σ} :
    (throw e : EStateM ε σ α) s = .error e' t ↔ e = e' ∧ s = t := by
  change EStateM.Result.error e s = .error e' t ↔ _
  simp

@[simp] theorem get_ok {s t u : σ} : (get : EStateM ε σ σ) s = .ok u t ↔ s = u ∧ s = t := by
  change EStateM.Result.ok s s = .ok u t ↔ _
  simp

@[simp] theorem set_ok {s t u : σ} {a : PUnit} :
    (set u : EStateM ε σ PUnit) s = .ok a t ↔ u = t := by
  change EStateM.Result.ok PUnit.unit u = .ok a t ↔ _
  simp

@[simp] theorem modify_ok {f : σ → σ} {s t : σ} {a : PUnit} :
    (modify f : EStateM ε σ PUnit) s = .ok a t ↔ f s = t := by
  change EStateM.Result.ok PUnit.unit (f s) = .ok a t ↔ _
  simp

@[simp] theorem query_ok {f : σ → Except ε α} {s t : σ} {a : α} :
    query f s = .ok a t ↔ f s = .ok a ∧ s = t := by
  unfold query
  cases f s <;> simp

@[simp] theorem query_error {f : σ → Except ε α} {s t : σ} {e : ε} :
    query f s = .error e t ↔ f s = .error e ∧ s = t := by
  unfold query
  cases f s <;> simp

@[simp] theorem check_ok {x : Except ε α} {s t : σ} {a : α} :
    (check x : EStateM ε σ α) s = .ok a t ↔ x = .ok a ∧ s = t := query_ok

@[simp] theorem check_error {x : Except ε α} {s t : σ} {e : ε} :
    (check x : EStateM ε σ α) s = .error e t ↔ x = .error e ∧ s = t := query_error

@[simp] theorem refuse_ok {c : Prop} [Decidable c] {e : ε} {s t : σ} {a : PUnit} :
    (refuse c e : EStateM ε σ PUnit) s = .ok a t ↔ ¬ c ∧ s = t := by
  unfold refuse
  by_cases h : c <;> simp [h]

@[simp] theorem refuse_error {c : Prop} [Decidable c] {e e' : ε} {s t : σ} :
    (refuse c e : EStateM ε σ PUnit) s = .error e' t ↔ c ∧ e = e' ∧ s = t := by
  unfold refuse
  by_cases h : c <;> simp [h]

@[simp] theorem after_refuse {c : Prop} [Decidable c] {e : ε} {s : σ} :
    after (refuse c e : EStateM ε σ PUnit) s = s := by
  unfold refuse
  by_cases h : c <;> simp [h]

@[simp] theorem okOr_ok {o : Option α} {e : ε} {s t : σ} {a : α} :
    (okOr o e : EStateM ε σ α) s = .ok a t ↔ o = some a ∧ s = t := by
  unfold okOr
  cases o <;> simp

@[simp] theorem after_okOr {o : Option α} {e : ε} {s : σ} :
    after (okOr o e : EStateM ε σ α) s = s := by
  unfold okOr
  cases o <;> simp

theorem onlyIf_ok {c : Prop} [Decidable c] {x : EStateM ε σ PUnit} {s t : σ} {a : PUnit} :
    onlyIf c x s = .ok a t ↔ (c → x s = .ok a t) ∧ (¬ c → s = t) := by
  unfold onlyIf
  by_cases h : c <;> simp [h]

theorem onlyIf_succeeds {c : Prop} [Decidable c] {x : EStateM ε σ PUnit} {s : σ}
    (h : c → ∃ t, x s = .ok ⟨⟩ t) : ∃ t, onlyIf c x s = .ok ⟨⟩ t := by
  unfold onlyIf
  by_cases hc : c
  · simpa [hc] using h hc
  · simp [hc]

@[simp] theorem after_check {x : Except ε α} {s : σ} :
    after (check x : EStateM ε σ α) s = s := after_query

/-- A sequence leaves what its rest leaves, where its first part succeeds. -/
theorem after_bind {x : EStateM ε σ α} {f : α → EStateM ε σ β} {s s' : σ} {a : α}
    (h : x s = .ok a s') : after (x >>= f) s = after (f a) s' := by
  unfold after
  rw [bind_eq, h]

@[simp] theorem after_bind_get {f : σ → EStateM ε σ β} {s : σ} :
    after (get >>= f) s = after (f s) s := rfl

@[simp] theorem after_bind_modify {g : σ → σ} {f : PUnit → EStateM ε σ β} {s : σ} :
    after (modify g >>= f) s = after (f ⟨⟩) (g s) := rfl

/-! ### Sequences

What a sequence did, by what its first part is. -/

theorem bind_check_ok {x : Except ε α} {f : α → EStateM ε σ β} {s t : σ} {b : β} :
    (check x >>= f) s = .ok b t ↔ ∃ a, x = .ok a ∧ f a s = .ok b t := by
  rw [bind_ok]
  constructor
  · rintro ⟨a, s', h, hf⟩
    obtain ⟨hx, rfl⟩ := check_ok.mp h
    exact ⟨a, hx, hf⟩
  · rintro ⟨a, hx, hf⟩
    exact ⟨a, s, check_ok.mpr ⟨hx, rfl⟩, hf⟩

theorem bind_query_ok {g : σ → Except ε α} {f : α → EStateM ε σ β} {s t : σ} {b : β} :
    (query g >>= f) s = .ok b t ↔ ∃ a, g s = .ok a ∧ f a s = .ok b t := by
  rw [bind_ok]
  constructor
  · rintro ⟨a, s', h, hf⟩
    obtain ⟨hg, rfl⟩ := query_ok.mp h
    exact ⟨a, hg, hf⟩
  · rintro ⟨a, hg, hf⟩
    exact ⟨a, s, query_ok.mpr ⟨hg, rfl⟩, hf⟩

theorem bind_get_ok {f : σ → EStateM ε σ β} {s t : σ} {b : β} :
    (get >>= f) s = .ok b t ↔ f s s = .ok b t := Iff.rfl

theorem bind_modify_ok {g : σ → σ} {f : PUnit → EStateM ε σ β} {s t : σ} {b : β} :
    (modify g >>= f) s = .ok b t ↔ f ⟨⟩ (g s) = .ok b t := Iff.rfl

theorem bind_refuse_ok {c : Prop} [Decidable c] {e : ε} {f : PUnit → EStateM ε σ β} {s t : σ}
    {b : β} : (refuse c e >>= f) s = .ok b t ↔ ¬ c ∧ f ⟨⟩ s = .ok b t := by
  rw [bind_ok]
  constructor
  · rintro ⟨_, s', h, hf⟩
    obtain ⟨hc, rfl⟩ := refuse_ok.mp h
    exact ⟨hc, hf⟩
  · rintro ⟨hc, hf⟩
    exact ⟨_, s, refuse_ok.mpr ⟨hc, rfl⟩, hf⟩

theorem bind_okOr_ok {o : Option α} {e : ε} {f : α → EStateM ε σ β} {s t : σ} {b : β} :
    (okOr o e >>= f) s = .ok b t ↔ ∃ a, o = some a ∧ f a s = .ok b t := by
  rw [bind_ok]
  constructor
  · rintro ⟨a, s', h, hf⟩
    obtain ⟨ho, rfl⟩ := okOr_ok.mp h
    exact ⟨a, ho, hf⟩
  · rintro ⟨a, ho, hf⟩
    exact ⟨a, s, okOr_ok.mpr ⟨ho, rfl⟩, hf⟩

/-- A sequence whose first part answers nothing of interest. -/
theorem bind_unit_ok {x : EStateM ε σ PUnit} {f : PUnit → EStateM ε σ β} {s t : σ} {b : β} :
    (x >>= f) s = .ok b t ↔ ∃ s', x s = .ok ⟨⟩ s' ∧ f ⟨⟩ s' = .ok b t := by
  rw [bind_ok]
  exact ⟨fun ⟨_, s', h, hf⟩ => ⟨s', h, hf⟩, fun ⟨s', h, hf⟩ => ⟨_, s', h, hf⟩⟩

theorem bind_query_error {g : σ → Except ε α} {f : α → EStateM ε σ β} {s t : σ} {e : ε} :
    (query g >>= f) s = .error e t ↔
      g s = .error e ∧ s = t ∨ ∃ a, g s = .ok a ∧ f a s = .error e t := by
  rw [bind_error, query_error]
  refine or_congr_right ⟨?_, ?_⟩
  · rintro ⟨a, s', h, hf⟩
    obtain ⟨hg, rfl⟩ := query_ok.mp h
    exact ⟨a, hg, hf⟩
  · rintro ⟨a, hg, hf⟩
    exact ⟨a, s, query_ok.mpr ⟨hg, rfl⟩, hf⟩

theorem bind_check_error {x : Except ε α} {f : α → EStateM ε σ β} {s t : σ} {e : ε} :
    (check x >>= f) s = .error e t ↔ x = .error e ∧ s = t ∨ ∃ a, x = .ok a ∧ f a s = .error e t :=
  bind_query_error

theorem bind_get_error {f : σ → EStateM ε σ β} {s t : σ} {e : ε} :
    (get >>= f) s = .error e t ↔ f s s = .error e t := Iff.rfl

theorem bind_modify_error {g : σ → σ} {f : PUnit → EStateM ε σ β} {s t : σ} {e : ε} :
    (modify g >>= f) s = .error e t ↔ f ⟨⟩ (g s) = .error e t := Iff.rfl

theorem bind_unit_error {x : EStateM ε σ PUnit} {f : PUnit → EStateM ε σ β} {s t : σ} {e : ε} :
    (x >>= f) s = .error e t ↔
      x s = .error e t ∨ ∃ s', x s = .ok ⟨⟩ s' ∧ f ⟨⟩ s' = .error e t := by
  rw [bind_error]
  exact or_congr_right ⟨fun ⟨_, s', h, hf⟩ => ⟨s', h, hf⟩, fun ⟨s', h, hf⟩ => ⟨_, s', h, hf⟩⟩

theorem onlyIf_error {c : Prop} [Decidable c] {x : EStateM ε σ PUnit} {s t : σ} {e : ε} :
    onlyIf c x s = .error e t ↔ c ∧ x s = .error e t := by
  unfold onlyIf
  by_cases h : c <;> simp [h]

/-- A part that never succeeds: what follows runs where it is left out. -/
theorem bind_unless_ok {c : Prop} [Decidable c] {x : EStateM ε σ PUnit}
    (hx : ∀ s a t, x s ≠ .ok a t) {f : PUnit → EStateM ε σ β} {s t : σ} {b : β} :
    (onlyIf c x >>= f) s = .ok b t ↔ ¬ c ∧ f ⟨⟩ s = .ok b t := by
  rw [bind_unit_ok]
  constructor
  · rintro ⟨s', h, hf⟩
    obtain ⟨hrun, hskip⟩ := onlyIf_ok.mp h
    have hc : ¬ c := fun hc => hx _ _ _ (hrun hc)
    obtain rfl := hskip hc
    exact ⟨hc, hf⟩
  · rintro ⟨hc, hf⟩
    exact ⟨s, onlyIf_ok.mpr ⟨fun h => absurd h hc, fun _ => rfl⟩, hf⟩

/-- Handling a failure: what the failed part did stays done. -/
theorem tryCatch_eq (x : EStateM ε σ α) (h : ε → EStateM ε σ α) (s : σ) :
    (tryCatch x h : EStateM ε σ α) s = match x s with
      | .ok a t => .ok a t
      | .error e t => h e t := by
  show EStateM.tryCatch x h s = _
  unfold EStateM.tryCatch
  cases x s <;> rfl

/-- A handler that fails again leaves the successes as they were. -/
theorem tryCatch_ok {x : EStateM ε σ α} {h : ε → EStateM ε σ α}
    (hfail : ∀ e s a t, h e s ≠ .ok a t) {s t : σ} {a : α} :
    (tryCatch x h : EStateM ε σ α) s = .ok a t ↔ x s = .ok a t := by
  rw [tryCatch_eq]
  cases x s with
  | ok b s' => rfl
  | error e s' =>
    simp only [reduceCtorEq, iff_false]
    exact hfail e s' a t

theorem tryCatch_error {x : EStateM ε σ α} {h : ε → EStateM ε σ α} {s t : σ} {e : ε} :
    (tryCatch x h : EStateM ε σ α) s = .error e t ↔
      ∃ e' s', x s = .error e' s' ∧ h e' s' = .error e t := by
  rw [tryCatch_eq]
  cases x s <;> simp

/-- A loop whose steps have known effects. -/
theorem forM_ok_foldl {l : List α} {f : α → EStateM ε σ PUnit} {g : σ → α → σ}
    (hf : ∀ a s t, f a s = .ok ⟨⟩ t → t = g s a) {s t : σ} (h : l.forM f s = .ok ⟨⟩ t) :
    t = l.foldl g s := by
  induction l generalizing s with
  | nil => exact (pure_ok.mp h).2.symm
  | cons a l ih =>
    rw [List.forM_eq_forM, List.forM_cons, bind_unit_ok] at h
    obtain ⟨s', ha, hl⟩ := h
    rw [List.foldl_cons, ← hf a s s' ha]
    exact ih hl

/-- A loop all of whose steps succeed, where each keeps what the later ones need. -/
theorem forM_ok_of {l : List α} {f : α → EStateM ε σ PUnit} {g : σ → α → σ} {I : σ → Prop}
    (hf : ∀ a ∈ l, ∀ s, I s → f a s = .ok ⟨⟩ (g s a) ∧ I (g s a)) {s : σ} (hs : I s) :
    l.forM f s = .ok ⟨⟩ (l.foldl g s) := by
  induction l generalizing s with
  | nil => rfl
  | cons a l ih =>
    obtain ⟨ha, hI⟩ := hf a (by simp) s hs
    rw [List.forM_eq_forM, List.forM_cons, bind_unit_ok]
    exact ⟨_, ha, ih (fun b hb => hf b (List.mem_cons_of_mem a hb)) hI⟩

/-! ## Checks without a state -/

theorem except_bind_ok {x : Except ε α} {f : α → Except ε β} {b : β} :
    (x >>= f) = .ok b ↔ ∃ a, x = .ok a ∧ f a = .ok b := by
  cases x with
  | error e => simp [bind, Except.bind]
  | ok a => simp [bind, Except.bind]

@[simp] theorem except_pure_ok {a b : α} : (pure a : Except ε α) = .ok b ↔ a = b := by
  simp [pure, Except.pure]

@[simp] theorem except_throw_ok {e : ε} {a : α} : ¬ (throw e : Except ε α) = .ok a := by
  simp [throw, throwThe, MonadExceptOf.throw]

/-- A guard passes exactly where its condition fails. -/
@[simp] theorem except_refuse_ok {c : Prop} [Decidable c] {e : ε} {a : PUnit} :
    (refuse c e : Except ε PUnit) = .ok a ↔ ¬ c := by
  unfold refuse
  by_cases h : c
  · simp [h]
  · simp [h, pure, Except.pure]

@[simp] theorem except_okOr_ok {o : Option α} {e : ε} {a : α} :
    (okOr o e : Except ε α) = .ok a ↔ o = some a := by
  unfold okOr
  cases o <;> simp

theorem except_onlyIf_ok {c : Prop} [Decidable c] {x : Except ε PUnit} {a : PUnit} :
    onlyIf c x = .ok a ↔ (c → x = .ok a) := by
  unfold onlyIf
  by_cases h : c
  · simp [h]
  · simp [h, pure, Except.pure]

/-- A loop of checks passes where each of them does. -/
theorem except_forM_ok {l : List α} {f : α → Except ε Unit} :
    l.forM f = .ok ⟨⟩ ↔ ∀ a ∈ l, f a = .ok ⟨⟩ := by
  induction l with
  | nil => simp [List.forM_eq_forM, pure, Except.pure]
  | cons a l ih =>
    rw [List.forM_eq_forM, List.forM_cons, except_bind_ok, ← List.forM_eq_forM, ih,
      List.forall_mem_cons]
    exact ⟨fun ⟨_, ha, hl⟩ => ⟨ha, hl⟩, fun ⟨ha, hl⟩ => ⟨_, ha, hl⟩⟩

/-! ## Steps of an operation -/

variable {R : σ → σ → Prop}

/-- Running `m` from `s` moves the state along `R`. -/
def Evolves (R : σ → σ → Prop) (m : EStateM ε σ α) (s : σ) : Prop := R s (after m s)

theorem Evolves.refl_of [Std.Refl R] {m : EStateM ε σ α} {s : σ} (h : after m s = s) :
    Evolves R m s := by
  rw [Evolves, h]
  exact Std.Refl.refl s

theorem Evolves.pure [Std.Refl R] {a : α} {s : σ} :
    Evolves R (Pure.pure a : EStateM ε σ α) s :=
  Std.Refl.refl (r := R) s

theorem Evolves.throw [Std.Refl R] {e : ε} {s : σ} :
    Evolves R (MonadExcept.throw e : EStateM ε σ α) s :=
  Std.Refl.refl (r := R) s

theorem Evolves.query [Std.Refl R] {f : σ → Except ε α} {s : σ} :
    Evolves R (Program.query f) s :=
  Evolves.refl_of after_query

/-- Sequencing: the rest runs from the state, and with the value, the first part gave. -/
theorem Evolves.bind [IsTrans σ R] {x : EStateM ε σ α} {f : α → EStateM ε σ β} {s : σ}
    (hx : Evolves R x s) (hf : ∀ a s', x s = .ok a s' → Evolves R (f a) s') :
    Evolves R (x >>= f) s := by
  unfold Evolves after at *
  rw [bind_eq]
  cases h : x s with
  | ok a s' =>
    rw [h] at hx
    exact IsTrans.trans _ _ _ hx (hf a s' h)
  | error e s' => simpa [h] using hx

theorem Evolves.bind_query [Std.Refl R] [IsTrans σ R] {g : σ → Except ε α}
    {f : α → EStateM ε σ β} {s : σ}
    (hf : ∀ a, g s = .ok a → Evolves R (f a) s) : Evolves R (Program.query g >>= f) s := by
  refine Evolves.bind Evolves.query ?_
  intro a s' h
  obtain ⟨ha, rfl⟩ := query_ok.mp h
  exact hf a ha

theorem Evolves.bind_get {f : σ → EStateM ε σ β} {s : σ}
    (hf : Evolves R (f s) s) : Evolves R (get >>= f) s := hf

theorem Evolves.ite {c : Prop} [Decidable c] {x y : EStateM ε σ α} {s : σ}
    (hx : c → Evolves R x s) (hy : ¬ c → Evolves R y s) :
    Evolves R (if c then x else y) s := by
  by_cases h : c
  · simpa [h] using hx h
  · simpa [h] using hy h

theorem Evolves.bind_check [Std.Refl R] [IsTrans σ R] {x : Except ε α}
    {f : α → EStateM ε σ β} {s : σ}
    (hf : ∀ a, x = .ok a → Evolves R (f a) s) : Evolves R (check x >>= f) s :=
  Evolves.bind_query hf

/-- A guard: what follows runs where the condition fails. -/
theorem Evolves.bind_refuse [Std.Refl R] [IsTrans σ R] {c : Prop} [Decidable c] {e : ε}
    {f : PUnit → EStateM ε σ β} {s : σ} (hf : ¬ c → Evolves R (f ⟨⟩) s) :
    Evolves R (refuse c e >>= f) s := by
  refine Evolves.bind (Evolves.refl_of after_refuse) ?_
  intro _ s' h
  obtain ⟨hc, rfl⟩ := refuse_ok.mp h
  exact hf hc

theorem Evolves.bind_okOr [Std.Refl R] [IsTrans σ R] {o : Option α} {e : ε}
    {f : α → EStateM ε σ β} {s : σ} (hf : ∀ a, o = some a → Evolves R (f a) s) :
    Evolves R (okOr o e >>= f) s := by
  refine Evolves.bind (Evolves.refl_of after_okOr) ?_
  intro a s' h
  obtain ⟨ha, rfl⟩ := okOr_ok.mp h
  exact hf a ha

theorem Evolves.of_modify {f : σ → σ} {s : σ} (h : R s (f s)) :
    Evolves R (modify f : EStateM ε σ PUnit) s := h

theorem Evolves.bind_modify [IsTrans σ R] {g : σ → σ} {f : PUnit → EStateM ε σ β} {s : σ}
    (hg : R s (g s)) (hf : Evolves R (f ⟨⟩) (g s)) :
    Evolves R (modify g >>= f) s :=
  Evolves.bind hg fun _ _ h => by
    obtain rfl := modify_ok.mp h
    exact hf

theorem Evolves.onlyIf [Std.Refl R] {c : Prop} [Decidable c] {x : EStateM ε σ PUnit} {s : σ}
    (h : c → Evolves R x s) : Evolves R (Program.onlyIf c x) s :=
  Evolves.ite h fun _ => Evolves.pure

/-- A loop: each iteration moves the state, from wherever the earlier ones left it. -/
theorem Evolves.forM [Std.Refl R] [IsTrans σ R] {l : List α} {f : α → EStateM ε σ PUnit}
    (hf : ∀ a ∈ l, ∀ s, Evolves R (f a) s) (s : σ) : Evolves R (l.forM f) s := by
  induction l generalizing s with
  | nil => exact Evolves.pure
  | cons a l ih =>
    rw [List.forM_eq_forM, List.forM_cons]
    refine Evolves.bind (hf a (by simp) s) ?_
    intro _ s' _
    exact ih (fun b hb => hf b (List.mem_cons_of_mem a hb)) s'

/-- A handled failure moves the state on from where the failed part left it. -/
theorem Evolves.tryCatch [IsTrans σ R] {x : EStateM ε σ α} {h : ε → EStateM ε σ α} {s : σ}
    (hx : Evolves R x s) (hh : ∀ e t, x s = .error e t → Evolves R (h e) t) :
    Evolves R (MonadExcept.tryCatch x h : EStateM ε σ α) s := by
  unfold Evolves after at *
  rw [tryCatch_eq]
  cases hrun : x s with
  | ok a t => rwa [hrun] at hx
  | error e t =>
    rw [hrun] at hx
    exact IsTrans.trans _ _ _ hx (hh e t hrun)

/-! ### Invariants -/

/-- An invariant that holds before holds after. -/
def Keeps (I : σ → Prop) (s t : σ) : Prop := I s → I t

instance {I : σ → Prop} : Std.Refl (Keeps I) := ⟨fun _ => id⟩

instance {I : σ → Prop} : IsTrans σ (Keeps I) := ⟨fun _ _ _ hst htu h => htu (hst h)⟩

/-- The invariant may be assumed where an operation starts. -/
theorem Evolves.assuming {I : σ → Prop} {m : EStateM ε σ α} {s : σ}
    (h : I s → Evolves (Keeps I) m s) : Evolves (Keeps I) m s := fun hs => h hs hs

/-- The rest of a sequence runs where the first part left an invariant. -/
theorem Evolves.bind_keeps {I J : σ → Prop} {x : EStateM ε σ α} {f : α → EStateM ε σ β} {s : σ}
    (hx : I (after x s)) (hIJ : ∀ s, I s → J s) (hf : ∀ a s', I s' → J (after (f a) s')) :
    J (after (x >>= f) s) := by
  unfold after at *
  rw [bind_eq]
  cases h : x s with
  | ok a s' =>
    rw [h] at hx
    exact hf a s' hx
  | error e s' =>
    rw [h] at hx
    exact hIJ _ hx

/-! ### Failures -/

/-- No failure of `m` is of the kind `Q`. -/
def Never (Q : ε → Prop) (m : EStateM ε σ α) : Prop := ∀ s e t, m s = .error e t → ¬ Q e

variable {Q : ε → Prop}

theorem Never.pure {a : α} : Never Q (Pure.pure a : EStateM ε σ α) := by
  intro s e t h
  cases h

theorem Never.get : Never Q (MonadState.get : EStateM ε σ σ) := by
  intro s e t h
  cases h

theorem Never.of_modify {f : σ → σ} : Never Q (modify f : EStateM ε σ PUnit) := by
  intro s e t h
  cases h

theorem Never.throw {e : ε} (h : ¬ Q e) : Never Q (MonadExcept.throw e : EStateM ε σ α) := by
  intro s e' t he
  cases he
  exact h

theorem Never.bind {x : EStateM ε σ α} {f : α → EStateM ε σ β} (hx : Never Q x)
    (hf : ∀ a, Never Q (f a)) : Never Q (x >>= f) := by
  intro s e t h
  rcases bind_error.mp h with h | ⟨a, s', -, h⟩
  · exact hx s e t h
  · exact hf a s' e t h

/-- A failure of the kind comes from the rest, where the first part has none. -/
theorem Never.bind_error {x : EStateM ε σ α} {f : α → EStateM ε σ β} (hx : Never Q x) {s t : σ}
    {e : ε} (h : (x >>= f) s = .error e t) (he : Q e) :
    ∃ a s', x s = .ok a s' ∧ f a s' = .error e t :=
  (Program.bind_error.mp h).resolve_left fun hx' => hx s e t hx' he

theorem Never.refuse {c : Prop} [Decidable c] {e : ε} (h : ¬ Q e) :
    Never Q (Program.refuse c e : EStateM ε σ PUnit) := by
  intro s e' t he
  obtain ⟨-, rfl, -⟩ := refuse_error.mp he
  exact h

theorem Never.ite {c : Prop} [Decidable c] {x y : EStateM ε σ α} (hx : Never Q x)
    (hy : Never Q y) : Never Q (if c then x else y) := by
  by_cases h : c
  · simpa [h] using hx
  · simpa [h] using hy

theorem Never.onlyIf {c : Prop} [Decidable c] {x : EStateM ε σ PUnit} (hx : Never Q x) :
    Never Q (Program.onlyIf c x) := Never.ite hx Never.pure

theorem Never.forM {l : List α} {f : α → EStateM ε σ PUnit} (hf : ∀ a, Never Q (f a)) :
    Never Q (l.forM f) := by
  induction l with
  | nil => exact Never.pure
  | cons a l ih =>
    rw [List.forM_eq_forM, List.forM_cons]
    exact Never.bind (hf a) fun _ => ih

end Program
