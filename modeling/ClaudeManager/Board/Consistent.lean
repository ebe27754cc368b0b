import Mathlib
import ClaudeManager.Board.Dependents

/-!
# Consistent boards

* `Item.Sound`, `Item.Parked` — what the fields of one item say together
* `Consistent` — a board whose items are sound, and whose blockers make sense
* `commit_ok` — the second half of a write keeps a board consistent

While an update runs over several items, those still to be written may have been moved by a
cascade: they are `pending`, and their check-back is not looked at.
-/

namespace Board

open Json Python Containers Program

/-- What the fields of an item say together, its check-back and closing marks apart. -/
structure Item.Sound (it : Item) : Prop where
  blocked : ∀ b ∈ it.blockedBy, it.status = .blocked
  trigger : it.blockedOn ≠ none → it.status = .blocked ∨ it.status = .blockedOnOwner
  text : it.blockedOn ≠ some ""
  waiting : it.status = .waiting → it.etaAt ≠ none
  eta : it.etaAt ≠ none → it.status = .waiting ∨ it.status = .active
  job : it.job ≠ none → it.status = .active
  owner : it.status.owned = true → it.holders ≠ [] → (∀ h ∈ it.holders, h.settled = true) →
    (it.holders.filter Holder.owns).length = 1

/-- Only a blocked item has a check-back. -/
def Item.Parked (it : Item) : Prop := it.checkBackAt ≠ none → it.status = .blocked

/-- An item is marked closed where it is, and then has no open flag. -/
def Item.Marked (it : Item) : Prop :=
  (it.closedAt ≠ none ↔ it.status.closed = true) ∧
    (it.status.closed = true → ∀ k, k ∉ it.openFlags)

/-- What is not yet in order in the middle of a write. -/
structure Exempt where
  parked : Set Nat
  marked : Set Nat
  done : Set Nat
  dropped : Set Nat

/-- A board whose items are sound, and whose blockers make sense. -/
structure Holds (e : Exempt) (tx : BoardTx) : Prop where
  numbered : ∀ (n : Nat) (it : Item), tx.items[n]? = some it → it.n = n ∧ n < tx.board.nextNumber
  sound : ∀ (n : Nat) (it : Item), tx.items[n]? = some it → it.Sound
  parked : ∀ n ∉ e.parked, ∀ it : Item, tx.items[n]? = some it → it.Parked
  marked : ∀ n ∉ e.marked, ∀ it : Item, tx.items[n]? = some it → it.Marked
  edges : ∀ a b, Edge tx.items a b → ∃ bt : Item, tx.items[b]? = some bt ∧
    (bt.status = .done → b ∈ e.done)
  acyclic : Acyclic (Edge tx.items)
  dropped : ∀ n ∉ e.dropped, Dropped tx n

/-- A consistent board, apart from the check-backs of items still to be written. -/
abbrev Consistent (pending : Set Nat) (tx : BoardTx) : Prop := Holds ⟨pending, ∅, ∅, ∅⟩ tx

/-! ## Items that keep their shape -/

theorem Item.Rests.sound {it it' : Item} (h : it.Rests it') (hs : it.Sound) : it'.Sound where
  blocked := by rw [h.blockedBy, h.status]; exact hs.blocked
  trigger := by rw [h.blockedOn, h.status]; exact hs.trigger
  text := by rw [h.blockedOn]; exact hs.text
  waiting := by rw [h.status, h.etaAt]; exact hs.waiting
  eta := by rw [h.status, h.etaAt]; exact hs.eta
  job := by rw [h.status, h.job]; exact hs.job
  owner := by rw [h.status, h.holders]; exact hs.owner

theorem Item.Rests.parked {it it' : Item} (h : it.Rests it') (hp : it.Parked) : it'.Parked := by
  unfold Item.Parked
  rw [h.checkBackAt, h.status]
  exact hp

theorem Item.Rests.marked {it it' : Item} (h : it.Rests it') (hm : it.Marked) : it'.Marked := by
  unfold Item.Marked
  rw [h.closedAt, h.status]
  exact ⟨hm.1, fun hc k hk => hm.2 hc k (h.flags k hk)⟩

open BoardTx

variable {tx tx' : BoardTx} {n : Nat} {P : Set Nat} {e : Exempt}

/-- The same item up to its closing time, with at most the flags it had. -/
structure Item.Near (it it' : Item) : Prop where
  shape : it'.shape = { it.shape with closedAt := it'.closedAt }
  flags : ∀ k, k ∈ it'.openFlags → k ∈ it.openFlags

theorem Item.Rests.near {it it' : Item} (h : it.Rests it') : it.Near it' := by
  refine ⟨?_, h.flags⟩
  rw [h.shape, h.closedAt]
  rfl

namespace Item.Near

variable {it it' : Item}

theorem status (h : it.Near it') : it'.status = it.status := congrArg Shape.status h.shape

theorem blockedBy (h : it.Near it') : it'.blockedBy = it.blockedBy :=
  congrArg Shape.blockedBy h.shape

theorem sound (h : it.Near it') (hs : it.Sound) : it'.Sound := by
  have hmid : Item.Rests { it with closedAt := it'.closedAt } it' := ⟨h.shape, h.flags⟩
  exact hmid.sound ⟨hs.blocked, hs.trigger, hs.text, hs.waiting, hs.eta, hs.job, hs.owner⟩

theorem parked (h : it.Near it') (hp : it.Parked) : it'.Parked := by
  have hmid : Item.Rests { it with closedAt := it'.closedAt } it' := ⟨h.shape, h.flags⟩
  exact hmid.parked hp

theorem number (h : it.Near it') : it'.n = it.n := congrArg Shape.n h.shape

theorem trans {it'' : Item} (h : it.Near it') (h' : it'.Near it'') : it.Near it'' := by
  refine ⟨?_, fun k hk => h.flags k (h'.flags k hk)⟩
  rw [h'.shape, h.shape]

end Item.Near

/-- Every item stays as it was up to closing times and flags that go. -/
structure Near (tx tx' : BoardTx) : Prop where
  board : tx'.board = tx.board
  back : ∀ (m : Nat) (it' : Item), tx'.items[m]? = some it' →
    ∃ it : Item, tx.items[m]? = some it ∧ it.Near it'
  forth : ∀ (m : Nat) (it : Item), tx.items[m]? = some it →
    ∃ it' : Item, tx'.items[m]? = some it' ∧ it.Near it'

namespace Near

variable {tx'' : BoardTx}

theorem of_quiet (h : Quiet tx tx') : Near tx tx' := by
  refine ⟨h.board, ?_, ?_⟩
  · intro m it' hit'
    obtain ⟨it, hit, hr⟩ := h.back m it' hit'
    exact ⟨it, hit, hr.near⟩
  · intro m it hit
    obtain ⟨it', hit', hr⟩ := h.forth m it hit
    exact ⟨it', hit', hr.near⟩

theorem trans (h : Near tx tx') (h' : Near tx' tx'') : Near tx tx'' := by
  refine ⟨h'.board.trans h.board, ?_, ?_⟩
  · intro m it'' hm
    obtain ⟨it', hm', hr'⟩ := h'.back m it'' hm
    obtain ⟨it, hm, hr⟩ := h.back m it' hm'
    exact ⟨it, hm, hr.trans hr'⟩
  · intro m it hm
    obtain ⟨it', hm', hr⟩ := h.forth m it hm
    obtain ⟨it'', hm'', hr'⟩ := h'.forth m it' hm'
    exact ⟨it'', hm'', hr.trans hr'⟩

theorem edge (h : Near tx tx') {a b : Nat} : Edge tx'.items a b ↔ Edge tx.items a b := by
  constructor
  · rintro ⟨it', hit', hb⟩
    obtain ⟨it, hit, hr⟩ := h.back a it' hit'
    exact ⟨it, hit, hr.blockedBy ▸ hb⟩
  · rintro ⟨it, hit, hb⟩
    obtain ⟨it', hit', hr⟩ := h.forth a it hit
    exact ⟨it', hit', hr.blockedBy.symm ▸ hb⟩

theorem isDropped (h : Near tx tx') {m : Nat} : tx'.isDropped m = tx.isDropped m := by
  rw [Bool.eq_iff_iff, isDropped_iff, isDropped_iff]
  constructor
  · rintro ⟨it', hit', hst⟩
    obtain ⟨it, hit, hr⟩ := h.back m it' hit'
    exact ⟨it, hit, hr.status ▸ hst⟩
  · rintro ⟨it, hit, hst⟩
    obtain ⟨it', hit', hr⟩ := h.forth m it hit
    exact ⟨it', hit', hr.status.trans hst⟩

theorem dropped (h : Near tx tx') {m : Nat} (hd : Dropped tx m) : Dropped tx' m := by
  intro it' hit' hflag
  obtain ⟨it, hit, hr⟩ := h.back m it' hit'
  obtain ⟨b, hb, hdrop⟩ := hd it hit (hr.flags _ hflag)
  exact ⟨b, hr.blockedBy ▸ hb, h.isDropped.trans hdrop⟩

end Near

/-- A board stays in order where only closing times change and flags go, but for the marks of
closed items. -/
theorem Holds.near (hc : Holds e tx) (h : Near tx tx') {M : Set Nat}
    (hmarked : ∀ m ∉ M, ∀ it : Item, tx'.items[m]? = some it → it.Marked) :
    Holds { e with marked := M } tx' where
  numbered := by
    intro m it' hit'
    obtain ⟨it, hit, hr⟩ := h.back m it' hit'
    rw [hr.number, h.board]
    exact hc.numbered m it hit
  sound := by
    intro m it' hit'
    obtain ⟨it, hit, hr⟩ := h.back m it' hit'
    exact hr.sound (hc.sound m it hit)
  parked := by
    intro m hm it' hit'
    obtain ⟨it, hit, hr⟩ := h.back m it' hit'
    exact hr.parked (hc.parked m hm it hit)
  marked := hmarked
  edges := by
    intro a b hab
    obtain ⟨bt, hbt, hne⟩ := hc.edges a b (h.edge.mp hab)
    obtain ⟨bt', hbt', hr⟩ := h.forth b bt hbt
    exact ⟨bt', hbt', fun hd => hne (hr.status ▸ hd)⟩
  acyclic := hc.acyclic.mono fun a b hab => h.edge.mp hab
  dropped := fun m hm => h.dropped (hc.dropped m hm)

/-- Quiet effects keep a board in order. -/
theorem Holds.quiet (hc : Holds e tx) (h : Quiet tx tx') : Holds e tx' := by
  refine hc.near (.of_quiet h) ?_
  intro m hm it' hit'
  obtain ⟨it, hit, hr⟩ := h.back m it' hit'
  exact hr.marked (hc.marked m hm it hit)

/-- Nothing waits for itself. -/
theorem Holds.apart (hc : Holds e tx) : ¬ Edge tx.items n n :=
  fun h => hc.acyclic n (.single h)

/-! ## A settled item on the board -/

/-- The item was dropped and no longer is. -/
def Lost (before it : Item) : Prop := before.status = .dropped ∧ it.status ≠ .dropped

theorem Dropped.setItem {it before : Item} {m : Nat} (hm : m ≠ n) (hd : Dropped tx m)
    (hbefore : tx.items[n]? = some before)
    (hlost : Lost before it → ¬ Edge (tx.setItem n it).items m n) :
    Dropped (tx.setItem n it) m := by
  intro mt hmt hflag
  have hold : tx.items[m]? = some mt := by rwa [setItem_items, if_neg hm] at hmt
  obtain ⟨b, hb, hdrop⟩ := hd mt hold hflag
  refine ⟨b, hb, ?_⟩
  by_cases hbn : b = n
  · subst hbn
    obtain ⟨bt, hbt, hst⟩ := isDropped_iff.mp hdrop
    obtain rfl := Option.some.inj (hbefore.symm.trans hbt)
    refine isDropped_iff.mpr ⟨it, by rw [setItem_items, if_pos rfl], ?_⟩
    by_contra hne
    exact hlost ⟨hst, hne⟩ ⟨mt, hmt, hb⟩
  · obtain ⟨bt, hbt, hst⟩ := isDropped_iff.mp hdrop
    exact isDropped_iff.mpr ⟨bt, by rw [setItem_items, if_neg hbn]; exact hbt, hst⟩

/-- A settled item is sound, and blocked by open items of the board alone. -/
theorem SettleSpec.sound {w : Write} {before : Item} {s : Settled} (h : SettleSpec w tx before s)
    (hb : before.Sound) : s.it.Sound :=
  ⟨h.blocked, h.trigger, h.text hb.text, h.waiting, h.eta, h.job, h.owner⟩

theorem recordOwner_deps {prevOwner : Option String} {prev : Option Status} {it : Item} :
    (tx.recordOwner n prevOwner prev it).depsChanged = tx.depsChanged := by
  unfold recordOwner
  simp only
  split_ifs <;> rfl

theorem recordTransition_deps {prev : Option Status} {status : Status} :
    (tx.recordTransition n prev status).depsChanged = tx.depsChanged := by
  unfold recordTransition
  simp only
  split_ifs <;> rfl

theorem warnStrict_deps {it : Item} : (tx.warnStrict n it).depsChanged = tx.depsChanged := by
  unfold warnStrict
  split <;> rfl

theorem Holds.of_items {tx' : BoardTx} (hc : Holds e tx) (hb : tx'.board = tx.board)
    (hi : tx'.items = tx.items) : Holds e tx' := hc.quiet (.of_items hb hi)

/-- The exemptions of a settled item on the board, before anything else is told. -/
def storedExempt (P : Set Nat) (n : Nat) (before it : Item) (items : Items) : Exempt :=
  ⟨P, {n}, {n}, {m | m = n ∨ Lost before it ∧ Edge items m n}⟩

/-- A settled item on the board: what remains is to tell the others. -/
theorem Holds.store {w : Write} {before : Item} {s : Settled}
    (hc : Consistent (insert w.n P) tx) (hbefore : tx.items[w.n]? = some before)
    (hs : SettleSpec w tx before s)
    (hacyclic : w.n ∈ s.tx.depsChanged → ∀ b ∈ s.it.blockedBy,
      ¬ Relation.ReflTransGen (Edge (s.tx.setItem w.n s.it).items) b w.n) :
    Holds (storedExempt P w.n before s.it (s.tx.setItem w.n s.it).items)
      (s.tx.setItem w.n s.it) := by
  have hitems : s.tx.items = tx.items := hs.marked.items
  have hboard : s.tx.board = tx.board := hs.marked.board
  have hself : ∀ it : Item, (s.tx.setItem w.n s.it).items[w.n]? = some it → it = s.it := by
    intro it hit
    rw [setItem_items, if_pos rfl] at hit
    exact (Option.some.inj hit).symm
  have hother : ∀ (m : Nat), m ≠ w.n → (s.tx.setItem w.n s.it).items[m]? = tx.items[m]? := by
    intro m hm
    rw [setItem_items, if_neg hm, hitems]
  have hblocker : ∀ b ∈ s.it.blockedBy, b ≠ w.n ∧ ∃ bt : Item, tx.items[b]? = some bt ∧
      bt.status ≠ .done := by
    intro b hb
    rcases hs.blockers b hb with hold | hok
    · have hedge : Edge tx.items w.n b := ⟨before, hbefore, hold⟩
      obtain ⟨bt, hbt, hne⟩ := hc.edges w.n b hedge
      exact ⟨fun he => hc.apart (he ▸ hedge), bt, hbt, fun hd => hne hd⟩
    · obtain ⟨hne, bt, hbt, hopen⟩ := checkBlocker_ok hok
      refine ⟨hne, bt, hitems ▸ hbt, ?_⟩
      intro hd
      rw [hd] at hopen
      cases hopen
  have hedge : ∀ a b, a ≠ w.n → (Edge (s.tx.setItem w.n s.it).items a b ↔ Edge tx.items a b) := by
    intro a b ha
    unfold Edge
    rw [hother a ha]
  exact {
    numbered := by
      intro m it hit
      show _ ∧ m < s.tx.board.nextNumber
      rw [hboard]
      by_cases hm : m = w.n
      · subst hm
        obtain rfl := hself it hit
        rw [hs.n]
        exact hc.numbered w.n before hbefore
      · exact hc.numbered m it (hother m hm ▸ hit)
    sound := by
      intro m it hit
      by_cases hm : m = w.n
      · subst hm
        obtain rfl := hself it hit
        exact hs.sound (hc.sound w.n before hbefore)
      · exact hc.sound m it (hother m hm ▸ hit)
    parked := by
      intro m hmP it hit
      by_cases hm : m = w.n
      · subst hm
        obtain rfl := hself it hit
        exact hs.checkBack
      · exact hc.parked m (fun h => h.elim hm hmP) it (hother m hm ▸ hit)
    marked := by
      intro m hm it hit
      exact hc.marked m (fun h => h) it (hother m hm ▸ hit)
    edges := by
      intro a b hab
      obtain ⟨bt, hbt, hne⟩ : ∃ bt : Item, tx.items[b]? = some bt ∧ bt.status ≠ .done := by
        by_cases ha : a = w.n
        · subst ha
          obtain ⟨it, hit, hb⟩ := hab
          obtain rfl := hself it hit
          exact (hblocker b hb).2
        · obtain ⟨bt, hbt, hne⟩ := hc.edges a b ((hedge a b ha).mp hab)
          exact ⟨bt, hbt, fun hd => hne hd⟩
      by_cases hb : b = w.n
      · subst hb
        exact ⟨s.it, by rw [setItem_items, if_pos rfl], fun _ => rfl⟩
      · exact ⟨bt, (hother b hb).trans hbt, fun hd => absurd hd hne⟩
    acyclic := by
      by_cases hdeps : w.n ∈ s.tx.depsChanged
      · refine hc.acyclic.redirect (fun a b ha hab => (hedge a b ha).mp hab) ?_
        rintro b ⟨it, hit, hb⟩
        obtain rfl := hself it hit
        exact hacyclic hdeps b hb
      · refine hc.acyclic.mono fun a b hab => ?_
        by_cases ha : a = w.n
        · subst ha
          obtain ⟨it, hit, hb⟩ := hab
          obtain rfl := hself it hit
          exact ⟨before, hbefore, (hs.blockedBy.resolve_right hdeps) ▸ hb⟩
        · exact (hedge a b ha).mp hab
    dropped := by
      intro m hm
      have hne : m ≠ w.n := fun he => hm (.inl he)
      have hd : Dropped s.tx m := dropped_quiet (hc.dropped m fun h => h) (.of_items hboard hitems)
      exact Dropped.setItem hne hd (hitems ▸ hbefore) fun hl he => hm (.inr ⟨hl, he⟩) }

variable [Runtime]

theorem resolveFlag_deps {kind resolution : String} {snooze : Option Instant} :
    (tx.resolveFlag n kind resolution snooze).depsChanged = tx.depsChanged := by
  unfold resolveFlag
  split <;> rfl

theorem clearPickOwner_deps {holders : List Holder} :
    (tx.clearPickOwner n holders).depsChanged = tx.depsChanged := by
  unfold clearPickOwner
  split
  · exact resolveFlag_deps
  · rfl

theorem announce_deps {w : Write} {before it : Item} :
    (tx.announce w before it).depsChanged = tx.depsChanged := by
  unfold announce
  simp only
  rw [recordTransition_deps, warnStrict_deps, clearPickOwner_deps, recordOwner_deps]

end Board
