import ClaudeManager.Program.Stateful

/-!
# Views of a state

A view forgets a part of the state. It serves two purposes:

* `Alike` — the effect of an operation lies in the part that the view forgets (a frame)
* `Blind` — what an operation does and answers does not depend on that part

A state that agrees with another one under a view that an operation is blind to can stand in
for it, so the operation can be replayed there.
-/

namespace Program

variable {ε σ τ α β : Type} {view : σ → τ}

/-! ## Frames -/

/-- The states differ at most in what the view forgets. -/
def Alike (view : σ → τ) (s t : σ) : Prop := view s = view t

instance : Std.Refl (Alike view) := ⟨fun _ => rfl⟩

instance : IsTrans σ (Alike view) := ⟨fun _ _ _ h h' => Eq.trans h h'⟩

/-- A field that the view keeps is unchanged. -/
theorem Evolves.field {m : EStateM ε σ α} {s : σ} (h : Evolves (Alike view) m s) (f : τ → β) :
    f (view (after m s)) = f (view s) :=
  congrArg f (Eq.symm h)

/-- A coarser view forgets more. -/
theorem Evolves.coarsen {view' : σ → τ} {m : EStateM ε σ α} {s : σ}
    (h : Evolves (Alike view) m s) (f : τ → τ) (hf : ∀ s, view' s = f (view s)) :
    Evolves (Alike view') m s := by
  show view' s = view' (after m s)
  rw [hf, hf]
  exact congrArg f h

/-! ## Blindness -/

/-- The result of an operation, under a view of the state it leaves. -/
def outcome (view : σ → τ) : EStateM.Result ε σ α → EStateM.Result ε τ α
  | .ok a s => .ok a (view s)
  | .error e s => .error e (view s)

/-- States that look the same lead to results that look the same. -/
def Blind (view : σ → τ) (m : EStateM ε σ α) : Prop :=
  ∀ s t, view s = view t → outcome view (m s) = outcome view (m t)

theorem outcome_ok {r : EStateM.Result ε σ α} {a : α} {v : τ} :
    outcome view r = .ok a v ↔ ∃ t, r = .ok a t ∧ view t = v := by
  cases r <;> simp [outcome]

theorem outcome_error {r : EStateM.Result ε σ α} {e : ε} {v : τ} :
    outcome view r = .error e v ↔ ∃ t, r = .error e t ∧ view t = v := by
  cases r <;> simp [outcome]

/-- A success can be repeated from a state that looks the same. -/
theorem Blind.ok {m : EStateM ε σ α} (hm : Blind view m) {s s' t : σ} {a : α}
    (hview : view s = view s') (h : m s = .ok a t) : ∃ t', m s' = .ok a t' ∧ view t' = view t := by
  have := hm s s' hview
  rw [h] at this
  exact outcome_ok.mp this.symm

theorem Blind.error {m : EStateM ε σ α} (hm : Blind view m) {s s' t : σ} {e : ε}
    (hview : view s = view s') (h : m s = .error e t) :
    ∃ t', m s' = .error e t' ∧ view t' = view t := by
  have := hm s s' hview
  rw [h] at this
  exact outcome_error.mp this.symm

theorem Blind.pure {a : α} : Blind view (Pure.pure a : EStateM ε σ α) := by
  intro s t h
  show outcome view (.ok a s) = outcome view (.ok a t)
  simp only [outcome, h]

theorem Blind.throw {e : ε} : Blind view (MonadExcept.throw e : EStateM ε σ α) := by
  intro s t h
  show outcome view (.error e s) = outcome view (.error e t)
  simp only [outcome, h]

theorem Blind.bind {x : EStateM ε σ α} {f : α → EStateM ε σ β} (hx : Blind view x)
    (hf : ∀ a, Blind view (f a)) : Blind view (x >>= f) := by
  intro s t h
  have hxs := hx s t h
  rw [bind_eq, bind_eq]
  cases hs : x s with
  | ok a s' =>
    rw [hs] at hxs
    obtain ⟨t', ht, hview⟩ := outcome_ok.mp hxs.symm
    rw [ht]
    exact hf a s' t' hview.symm
  | error e s' =>
    rw [hs] at hxs
    obtain ⟨t', ht, hview⟩ := outcome_error.mp hxs.symm
    rw [ht]
    simp only [outcome, hview]

theorem Blind.query {g : σ → Except ε α} (hg : ∀ s t, view s = view t → g s = g t) :
    Blind view (Program.query g) := by
  intro s t h
  unfold Program.query
  rw [hg s t h]
  cases g t <;> simp only [outcome, h]

theorem Blind.check {x : Except ε α} : Blind view (check x) :=
  Blind.query fun _ _ _ => rfl

theorem Blind.modify_congr {f : σ → σ} (hf : ∀ s t, view s = view t → view (f s) = view (f t)) :
    Blind view (modify f : EStateM ε σ PUnit) := by
  intro s t h
  show outcome view (.ok PUnit.unit (f s)) = outcome view (.ok PUnit.unit (f t))
  simp only [outcome, hf s t h]

/-- Reading the state: what follows depends on the part that the view keeps. -/
theorem Blind.bind_get {f : σ → EStateM ε σ β} (hf : ∀ s, Blind view (f s))
    (hcongr : ∀ s t, view s = view t → f s = f t) : Blind view (get >>= f) := by
  intro s t h
  show outcome view (f s s) = outcome view (f t t)
  rw [hcongr s t h]
  exact hf t s t h

theorem Blind.refuse {c : Prop} [Decidable c] {e : ε} :
    Blind view (refuse c e : EStateM ε σ PUnit) := by
  unfold Program.refuse
  by_cases h : c
  · simpa [h] using Blind.throw
  · simpa [h] using Blind.pure

theorem Blind.okOr {o : Option α} {e : ε} : Blind view (okOr o e : EStateM ε σ α) := by
  unfold Program.okOr
  cases o
  · exact Blind.throw
  · exact Blind.pure

theorem Blind.ite {c : Prop} [Decidable c] {x y : EStateM ε σ α} (hx : c → Blind view x)
    (hy : ¬ c → Blind view y) : Blind view (if c then x else y) := by
  by_cases h : c
  · simpa [h] using hx h
  · simpa [h] using hy h

theorem Blind.onlyIf {c : Prop} [Decidable c] {x : EStateM ε σ PUnit} (hx : Blind view x) :
    Blind view (onlyIf c x) :=
  Blind.ite (fun _ => hx) fun _ => Blind.pure

theorem Blind.forM {l : List α} {f : α → EStateM ε σ PUnit} (hf : ∀ a, Blind view (f a)) :
    Blind view (l.forM f) := by
  induction l with
  | nil => exact Blind.pure
  | cons a l ih =>
    rw [List.forM_eq_forM, List.forM_cons]
    exact Blind.bind (hf a) fun _ => ih

/-- Blindness under a wider view, where the operation leaves the rest of that view alone. -/
theorem Blind.widen {τ' τ'' : Type} {w : σ → τ'} {wide : σ → τ''} {m : EStateM ε σ α}
    (hm : Blind view m) (hframe : ∀ s, w (after m s) = w s)
    (hread : ∀ s t, wide s = wide t → view s = view t ∧ w s = w t)
    (hwide : ∀ s t, view s = view t → w s = w t → wide s = wide t) : Blind wide m := by
  intro s t h
  obtain ⟨hv, hw⟩ := hread s t h
  have hout := hm s t hv
  have hs := hframe s
  have ht := hframe t
  cases hms : m s with
  | ok a s' =>
    rw [hms] at hout
    obtain ⟨t', hmt, hview⟩ := outcome_ok.mp hout.symm
    rw [after_ok hms] at hs
    rw [after_ok hmt] at ht
    rw [hmt]
    simp only [outcome, hwide s' t' hview.symm (by rw [hs, ht, hw])]
  | error e s' =>
    rw [hms] at hout
    obtain ⟨t', hmt, hview⟩ := outcome_error.mp hout.symm
    rw [after_error hms] at hs
    rw [after_error hmt] at ht
    rw [hmt]
    simp only [outcome, hwide s' t' hview.symm (by rw [hs, ht, hw])]

/-! ### Views within the state

Where the view is a state itself, blindness is that the operation does the same from there. -/

section

variable {view : σ → σ}

theorem Blind.of_query {g : σ → Except ε α} (hg : ∀ s, g s = g (view s)) :
    Blind view (Program.query g) :=
  Blind.query fun s t h => by rw [hg s, hg t, h]

theorem Blind.of_modify {f : σ → σ} (hf : ∀ s, view (f s) = view (f (view s))) :
    Blind view (modify f : EStateM ε σ PUnit) :=
  Blind.modify_congr fun s t h => by rw [hf s, hf t, h]

theorem Blind.of_get {f : σ → EStateM ε σ β} (hf : ∀ s, Blind view (f s))
    (hview : ∀ s, f s = f (view s)) : Blind view (get >>= f) :=
  Blind.bind_get hf fun s t h => by rw [hview s, hview t, h]

end

end Program
