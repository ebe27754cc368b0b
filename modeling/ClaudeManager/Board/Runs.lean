import Mathlib
import ClaudeManager.Program.Runs
import ClaudeManager.Board.Writes

/-!
# Transactions keep a board consistent

* `Eases` — nothing an item waiting for the items that are set done alone would take along
* `run_ok` — what a transaction that is kept preserves
* `consistent_runs` — every sequence of transactions
-/

namespace Board

open Json Python Containers Program BoardTx

variable {tx tx' : BoardTx} {n : Nat} {P N : Set Nat}

/-- An item that waits for some of the items `N` alone. -/
def Waits (N : Set Nat) (it : Item) : Prop :=
  it.status = .blocked ∧ isSet it.blockedOn = false ∧ (∃ b, b ∈ it.blockedBy) ∧
    ∀ b ∈ it.blockedBy, b ∈ N

/-- What goes on once the items `N` are done has no check-back and no suggestion. -/
def Eases (N : Set Nat) (items : Items) : Prop :=
  ∀ m ∉ N, ∀ it : Item, items[m]? = some it → Waits N it →
    it.checkBackAt = none ∧ suggested ∉ it.openFlags

/-- A suggestion still open was made, or was open, at the status the item still has. -/
def Kept (items items' : Items) : Prop :=
  ∀ (m : Nat) (it : Item), items[m]? = some it → ∃ it' : Item, items'[m]? = some it' ∧
    (suggested ∈ it'.openFlags → it'.status = it.status)

theorem Moved.waits {it it' : Item} {done : Prop} (hn : n ∈ N) (h : Moved done n it it')
    (hw : Waits N it') : Waits N it := by
  obtain ⟨hblocked, hset, ⟨b, hb⟩, hall⟩ := hw
  have hon : it'.blockedOn = it.blockedOn := congrArg Shape.blockedOn h.shape
  have hstatus : it.status = .blocked := by
    rcases h.status with hst | ⟨-, -, -, hst | hst⟩
    · exact hst ▸ hblocked
    · rw [hst] at hblocked
      cases hblocked
    · rw [hst] at hblocked
      cases hblocked
  refine ⟨hstatus, hon ▸ hset, ?_, ?_⟩
  · rcases h.blockedBy with heq | ⟨-, heq⟩
    · exact ⟨b, heq ▸ hb⟩
    · exact ⟨b, (natSet_mem_erase.mp (heq ▸ hb)).2⟩
  · intro a ha
    rcases h.blockedBy with heq | ⟨-, heq⟩
    · exact hall a (heq ▸ ha)
    · by_cases han : a = n
      · exact han ▸ hn
      · exact hall a (heq ▸ natSet_mem_erase.mpr ⟨han, ha⟩)

theorem Moved.checkBackAt {it it' : Item} {done : Prop} (h : Moved done n it it') :
    it'.checkBackAt = it.checkBackAt := congrArg Shape.checkBackAt h.shape

/-- An item outside the call loses no suggestion to a status change. -/
theorem Moved.kept {it it' : Item} {done : Prop} (h : Moved done n it it') (hn : n ∈ N)
    (heases : done → Waits N it → suggested ∉ it.openFlags)
    (hflag : suggested ∈ it'.openFlags) :
    suggested ∈ it.openFlags ∧ it'.status = it.status := by
  refine ⟨h.suggestion hflag, ?_⟩
  rcases h.status with hst | ⟨hd, hb, ⟨hblocked, hset, halone⟩, -⟩
  · exact hst
  · refine absurd (h.suggestion hflag) (heases hd ⟨hblocked, hset, ⟨n, hb⟩, fun b hb => ?_⟩)
    exact halone b hb ▸ hn

/-- A board that is consistent is, the more so with items still to be written. -/
theorem Holds.weaken {Q : Set Nat} (hc : Consistent P tx) (h : P ⊆ Q) : Consistent Q tx :=
  ⟨hc.numbered, hc.sound, fun m hm => hc.parked m fun hp => hm (h hp), hc.marked, hc.edges,
    hc.acyclic, hc.dropped⟩

/-! ## Updating -/

/-- What holds while an update goes over its items: `N` are all of them, `l` those left. -/
structure Updating (closes : Prop) (N : Set Nat) (start : Items) (l : List Nat) (tx : BoardTx) :
    Prop where
  consistent : Consistent {m | m ∈ l} tx
  eases : closes → Eases N tx.items
  done : closes → ∀ m ∈ N, m ∉ l → ∀ it : Item, tx.items[m]? = some it → it.status = .done
  kept : ∀ (m : Nat) (it : Item), start[m]? = some it → ∃ it' : Item, tx.items[m]? = some it' ∧
    ((closes → m ∉ N) → suggested ∈ it'.openFlags →
      suggested ∈ it.openFlags ∧ it'.status = it.status)

/-- An update is over: nothing is left to write. -/
theorem Updating.over {closes : Prop} {start : Items} (h : Updating closes N start [] tx) :
    Consistent ∅ tx ∧ Kept start tx.items := by
  have hc : Consistent ∅ tx := h.consistent.weaken fun m hm => by simp at hm
  refine ⟨hc, ?_⟩
  intro m it hit
  obtain ⟨it', hit', hkept⟩ := h.kept m it hit
  refine ⟨it', hit', fun hflag => ?_⟩
  by_cases hout : closes → m ∉ N
  · exact (hkept hout hflag).2
  · obtain ⟨hcl, hm⟩ := Classical.not_imp.mp hout
    have hst := h.done hcl m (not_not.mp hm) (by simp) it' hit'
    exact absurd hflag ((hc.marked m (fun h => h) it' hit').2 (by rw [hst]; rfl) suggested)

/-- Nothing is written yet. -/
theorem updating_start {closes : Prop} {l : List Nat} (hc : Consistent ∅ tx)
    (heases : closes → Eases {m | m ∈ l} tx.items) :
    Updating closes {m | m ∈ l} tx.items l tx := by
  refine ⟨hc.weaken (Set.empty_subset _), heases, fun _ m hm hml => absurd hm hml, ?_⟩
  exact fun m it hit => ⟨it, hit, fun _ hflag => ⟨hflag, rfl⟩⟩

/-- The call sets its items done. -/
def BoardTx.Update.closes (u : Update) : Prop := u.fields.lookup "status" = some (.str "done")

theorem lookup_without {fields : Fields} {key other : String} (hne : key ≠ other) :
    (fields.without other).lookup key = fields.lookup key := by
  induction fields with
  | nil => rfl
  | cons e fields ih =>
    obtain ⟨k, v⟩ := e
    unfold Fields.without at ih ⊢
    by_cases hk : k = other
    · subst hk
      have hkey : (key == k) = false := beq_eq_false_iff_ne.mpr hne
      simpa [List.filter_cons, List.lookup_cons, hkey] using ih
    · simp only [List.filter_cons, decide_not, hk, decide_false, Bool.not_false, if_true,
        List.lookup_cons]
      split
      · rfl
      · simpa using ih

/-- The writes of an update. -/
theorem Update.write_ok {u : Update} {write : Nat → Write} (h : u.write = .ok write) (n : Nat) :
    (write n).n = n ∧ (write n).creating = false ∧
      ((write n).closes ↔ u.closes) := by
  unfold Update.write at h
  obtain ⟨_, -, h⟩ := except_bind_ok.mp h
  obtain ⟨_, -, h⟩ := except_bind_ok.mp h
  obtain ⟨_, -, h⟩ := except_bind_ok.mp h
  obtain ⟨_, -, h⟩ := except_bind_ok.mp h
  obtain ⟨_, -, h⟩ := except_bind_ok.mp h
  obtain ⟨_, -, h⟩ := except_bind_ok.mp h
  obtain rfl := except_pure_ok.mp h
  refine ⟨rfl, rfl, ?_⟩
  unfold Write.closes Update.closes
  rw [lookup_without (by decide)]

/-! ## Creating -/

theorem addItem_items {title : String} {m : Nat} :
    (tx.addItem title).items[m]? = if m = tx.board.nextNumber then
      some (newItem tx.board.nextNumber title tx.now tx.actor.pid) else tx.items[m]? :=
  natMap_getElem?_insert

theorem addItem_other {title : String} {m : Nat} {it : Item} (hc : Consistent ∅ tx)
    (h : tx.items[m]? = some it) : (tx.addItem title).items[m]? = some it := by
  rw [addItem_items, if_neg]
  · exact h
  · have := (hc.numbered m it h).2
    omega

/-- Nobody waits for a new item, and it waits for nobody. -/
theorem addItem_edge {title : String} {a b : Nat} (hc : Consistent ∅ tx)
    (h : Edge (tx.addItem title).items a b) : Edge tx.items a b ∧ b ≠ tx.board.nextNumber := by
  obtain ⟨it, hit, hb⟩ := h
  rw [addItem_items] at hit
  split at hit
  · obtain rfl := Option.some.inj hit
    exact absurd hb Std.ExtTreeSet.not_mem_empty
  · obtain ⟨bt, hbt, -⟩ := hc.edges a b ⟨it, hit, hb⟩
    have := (hc.numbered b bt hbt).2
    exact ⟨⟨it, hit, hb⟩, by omega⟩

/-- A new item is in order: it is open, and nobody waits for it. -/
theorem addItem_ok {title : String} (hc : Consistent ∅ tx) :
    Consistent ∅ (tx.addItem title) := by
  have hcase : ∀ (m : Nat) (it : Item), (tx.addItem title).items[m]? = some it →
      (m = tx.board.nextNumber ∧ it = newItem m title tx.now tx.actor.pid) ∨
        tx.items[m]? = some it := by
    intro m it hit
    rw [addItem_items] at hit
    split at hit
    · next hm => exact .inl ⟨hm, by rw [hm, Option.some.inj hit]⟩
    · exact .inr hit
  have hnone : ∀ k, k ∉ (∅ : Map Flag) := fun k => Std.ExtTreeMap.not_mem_empty
  exact {
    numbered := by
      intro m it hit
      show it.n = m ∧ m < tx.board.nextNumber + 1
      rcases hcase m it hit with ⟨hm, rfl⟩ | hold
      · exact ⟨rfl, by omega⟩
      · have hnum := hc.numbered m it hold
        exact ⟨hnum.1, by omega⟩
    sound := by
      intro m it hit
      rcases hcase m it hit with ⟨-, rfl⟩ | hold
      · exact ⟨fun b hb => absurd hb Std.ExtTreeSet.not_mem_empty, fun h => absurd rfl h, nofun,
          nofun, fun h => absurd rfl h, fun h => absurd rfl h, nofun⟩
      · exact hc.sound m it hold
    parked := by
      intro m hm it hit
      rcases hcase m it hit with ⟨-, rfl⟩ | hold
      · exact fun h => absurd rfl h
      · exact hc.parked m hm it hold
    marked := by
      intro m hm it hit
      rcases hcase m it hit with ⟨-, rfl⟩ | hold
      · exact ⟨⟨fun h => absurd rfl h, nofun⟩, fun _ => hnone⟩
      · exact hc.marked m hm it hold
    edges := by
      intro a b hab
      obtain ⟨bt, hbt, hopen⟩ := hc.edges a b (addItem_edge hc hab).1
      exact ⟨bt, addItem_other hc hbt, hopen⟩
    acyclic := hc.acyclic.mono fun a b hab => (addItem_edge hc hab).1
    dropped := by
      intro m hm it hit hflag
      rcases hcase m it hit with ⟨-, rfl⟩ | hold
      · exact absurd hflag (hnone _)
      · obtain ⟨b, hb, hdrop⟩ := hc.dropped m hm it hold hflag
        obtain ⟨bt, hbt, hst⟩ := isDropped_iff.mp hdrop
        exact ⟨b, hb, isDropped_iff.mpr ⟨bt, addItem_other hc hbt, hst⟩⟩ }

/-- Since then no item lost its suggestion to a status change, and none is gone. -/
def Stays (items items' : Items) : Prop :=
  ∀ (m : Nat) (it : Item), items[m]? = some it → ∃ it' : Item, items'[m]? = some it' ∧
    (suggested ∈ it'.openFlags → suggested ∈ it.openFlags ∧ it'.status = it.status)

theorem Stays.refl (items : Items) : Stays items items :=
  fun _ it hit => ⟨it, hit, fun hflag => ⟨hflag, rfl⟩⟩

theorem Stays.trans {items items' items'' : Items} (h : Stays items items')
    (h' : Stays items' items'') : Stays items items'' := by
  intro m it hit
  obtain ⟨it', hit', hkept⟩ := h m it hit
  obtain ⟨it'', hit'', hkept'⟩ := h' m it' hit'
  refine ⟨it'', hit'', fun hflag => ?_⟩
  obtain ⟨hflag', hst'⟩ := hkept' hflag
  obtain ⟨hflag'', hst⟩ := hkept hflag'
  exact ⟨hflag'', hst'.trans hst⟩

theorem Stays.kept {items items' : Items} (h : Stays items items') : Kept items items' := by
  intro m it hit
  obtain ⟨it', hit', hkept⟩ := h m it hit
  exact ⟨it', hit', fun hflag => (hkept hflag).2⟩

/-- Every item keeps its status. -/
def Still (items items' : Items) : Prop :=
  ∀ (m : Nat) (it : Item), items[m]? = some it →
    ∃ it' : Item, items'[m]? = some it' ∧ it'.status = it.status

theorem still_of_quiet (h : Quiet tx tx') : Still tx.items tx'.items := by
  intro m it hit
  obtain ⟨it', hit', hr⟩ := h.forth m it hit
  exact ⟨it', hit', hr.status⟩

theorem still_of_tagged (h : Tagged tx tx') : Still tx.items tx'.items := by
  intro m it hit
  obtain ⟨it', hit', hshape⟩ := h.forth m it hit
  exact ⟨it', hit', congrArg Shape.status hshape⟩

theorem Still.trans {items items' items'' : Items} (h : Still items items')
    (h' : Still items' items'') : Still items items'' := by
  intro m it hit
  obtain ⟨it', hit', hst⟩ := h m it hit
  obtain ⟨it'', hit'', hst'⟩ := h' m it' hit'
  exact ⟨it'', hit'', hst'.trans hst⟩

theorem Still.kept {items items' : Items} (h : Still items items') : Kept items items' := by
  intro m it hit
  obtain ⟨it', hit', hst⟩ := h m it hit
  exact ⟨it', hit', fun _ => hst⟩

/-- What a touch leaves of the board. -/
def Touched (tx tx' : BoardTx) : Prop := Consistent ∅ tx' ∧ Still tx.items tx'.items

theorem touched_of_quiet (hc : Consistent ∅ tx) (h : Quiet tx tx') : Touched tx tx' :=
  ⟨hc.quiet h, still_of_quiet h⟩

theorem Touched.quiet {tx'' : BoardTx} (h : Touched tx tx') (hq : Quiet tx' tx'') :
    Touched tx tx'' := ⟨h.1.quiet hq, h.2.trans (still_of_quiet hq)⟩

theorem Touched.after {tx'' : BoardTx} (hq : Quiet tx tx') (h : Touched tx' tx'') :
    Touched tx tx'' := ⟨h.1, (still_of_quiet hq).trans h.2⟩

/-- What a write leaves, seen from before the quiet steps that led to it. -/
theorem outcome_after {tx'' : BoardTx} (hq : Quiet tx tx')
    (h : Consistent ∅ tx'' ∧ Kept tx'.items tx''.items) :
    Consistent ∅ tx'' ∧ Kept tx.items tx''.items := by
  refine ⟨h.1, ?_⟩
  intro m it hit
  obtain ⟨it', hit', hr⟩ := hq.forth m it hit
  obtain ⟨it'', hit'', hkept⟩ := h.2 m it' hit'
  exact ⟨it'', hit'', fun hflag => (hkept hflag).trans hr.status⟩

theorem outcome_before {tx'' : BoardTx} (h : Consistent ∅ tx' ∧ Kept tx.items tx'.items)
    (hq : Quiet tx' tx'') : Consistent ∅ tx'' ∧ Kept tx.items tx''.items := by
  refine ⟨h.1.quiet hq, ?_⟩
  intro m it hit
  obtain ⟨it', hit', hkept⟩ := h.2 m it hit
  obtain ⟨it'', hit'', hr⟩ := hq.forth m it' hit'
  exact ⟨it'', hit'', fun hflag => hr.status.trans (hkept (hr.flags _ hflag))⟩

theorem eases_quiet (h : Eases N tx.items) (hq : Quiet tx tx') : Eases N tx'.items := by
  intro m hm it' hit' hwaits
  obtain ⟨it, hit, hr⟩ := hq.back m it' hit'
  have hold : Waits N it := by
    obtain ⟨hblocked, hset, hb, hall⟩ := hwaits
    rw [hr.blockedBy] at hb hall
    exact ⟨hr.status ▸ hblocked, hr.blockedOn ▸ hset, hb, hall⟩
  obtain ⟨hcheck, hflag⟩ := h m hm it hit hold
  exact ⟨hr.checkBackAt.trans hcheck, fun hk => hflag (hr.flags _ hk)⟩

/-- The call sets its item done: it confirms a suggestion to. -/
def BoardTx.Resolve.closes (r : Resolve) : Prop := r.action = "apply" ∧ r.toStatus = some "done"

theorem outcome_quiet (hc : Consistent ∅ tx) (hq : Quiet tx tx') :
    Consistent ∅ tx' ∧ Kept tx.items tx'.items := ⟨hc.quiet hq, (still_of_quiet hq).kept⟩

/-- The write that settles an item's flags sets nothing done. -/
theorem settlingWrite_ok {r : Resolve} {w : Write} (h : settlingWrite r = .ok (some w)) :
    w.creating = false ∧ ¬ w.closes := by
  unfold settlingWrite at h
  split at h
  · obtain ⟨_, -, h⟩ := except_bind_ok.mp h
    obtain ⟨holders, -, h⟩ := except_bind_ok.mp h
    obtain rfl := Option.some.inj (except_pure_ok.mp h)
    refine ⟨rfl, fun hcl => ?_⟩
    unfold Write.closes Write.plain at hcl
    simp at hcl
  · split at h
    · obtain ⟨fields, hfields, h⟩ := except_bind_ok.mp h
      obtain rfl := Option.some.inj (except_pure_ok.mp h)
      obtain ⟨_, -, hfields⟩ := except_bind_ok.mp hfields
      obtain ⟨_, -, hfields⟩ := except_bind_ok.mp hfields
      obtain rfl := except_pure_ok.mp hfields
      refine ⟨rfl, fun hcl => ?_⟩
      unfold Write.closes Write.plain at hcl
      simp at hcl
    · split at h
      · obtain rfl := Option.some.inj (Except.ok.inj h)
        refine ⟨rfl, fun hcl => ?_⟩
        unfold Write.closes Write.plain at hcl
        simp at hcl
      · cases h

section

variable [Runtime]

/-- One write of an update. -/
theorem updating_step {closes : Prop} {start : Items} {l : List Nat} {w : Write}
    (hw : w.closes ↔ closes) (hnew : w.creating = false) (hn : w.n ∈ N)
    (h : Updating closes N start (w.n :: l) tx) (happly : tx.apply w = .ok tx') :
    Updating closes N start l tx' := by
  have hpending : {m | m ∈ w.n :: l} = insert w.n {m | m ∈ l} := by
    ext m
    simp
  obtain ⟨before, hbefore⟩ : ∃ before : Item, tx.items[w.n]? = some before := by
    unfold BoardTx.apply BoardTx.item at happly
    split at happly
    · next it hit => exact ⟨it, hit⟩
    · cases happly
  have hok : Applied {m | m ∈ l} w before tx tx' := by
    refine apply_ok (hpending ▸ h.consistent) hbefore (by simp [hnew]) ?_ happly
    intro hcl m hm it hit hb hfreed
    by_cases hmN : m ∈ N
    · have hrest : m ∉ w.n :: l := by simpa using hm
      have hst := h.done (hw.mp hcl) m hmN hrest it hit
      rw [hfreed.1] at hst
      cases hst
    · refine (h.eases (hw.mp hcl) m hmN it hit ⟨hfreed.1, hfreed.2.1, ⟨w.n, hb⟩, ?_⟩).1
      exact fun b hb => hfreed.2.2 b hb ▸ hn
  obtain ⟨after, hafter, hclosed, hflagged⟩ := hok.self
  have hback : ∀ m ≠ w.n, ∀ it' : Item, tx'.items[m]? = some it' → ∃ it : Item,
      tx.items[m]? = some it ∧ Moved w.closes w.n it it' := by
    intro m hm it' hit'
    obtain ⟨it, hit⟩ := hok.back m it' hit'
    obtain ⟨it2, hit2, hmoved⟩ := hok.others m hm it hit
    obtain rfl := Option.some.inj (hit2.symm.trans hit')
    exact ⟨it, hit, hmoved⟩
  refine ⟨hok.consistent, ?_, ?_, ?_⟩
  · intro hcl m hm it' hit' hwaits
    obtain ⟨it, hit, hmoved⟩ := hback m (fun he => hm (he ▸ hn)) it' hit'
    obtain ⟨hcheck, hflag⟩ := h.eases hcl m hm it hit (hmoved.waits hn hwaits)
    exact ⟨hmoved.checkBackAt.trans hcheck, fun hk => hflag (hmoved.suggestion hk)⟩
  · intro hcl m hm hml it' hit'
    by_cases hmn : m = w.n
    · subst hmn
      obtain rfl := Option.some.inj (hafter.symm.trans hit')
      exact hclosed (hw.mpr hcl)
    · obtain ⟨it, hit, hmoved⟩ := hback m hmn it' hit'
      have hst := h.done hcl m hm (by simp [hmn, hml]) it hit
      rcases hmoved.status with he | ⟨-, -, ⟨hblocked, -⟩, -⟩
      · exact he.trans hst
      · rw [hblocked] at hst
        cases hst
  · intro m it0 hit0
    obtain ⟨it, hit, hkept⟩ := h.kept m it0 hit0
    by_cases hmn : m = w.n
    · subst hmn
      obtain rfl := Option.some.inj (hbefore.symm.trans hit)
      refine ⟨after, hafter, fun hout hflag => ?_⟩
      obtain ⟨hold, hst⟩ := hflagged hflag
      obtain ⟨hflag0, hst0⟩ := hkept hout hold
      refine ⟨hflag0, (hst.resolve_left (by simp [hnew])).trans hst0⟩
    · obtain ⟨it', hit', hmoved⟩ := hok.others m hmn it hit
      refine ⟨it', hit', fun hout hflag => ?_⟩
      have heases : w.closes → Waits N it → suggested ∉ it.openFlags :=
        fun hd hwaits => (h.eases (hw.mp hd) m (hout (hw.mp hd)) it hit hwaits).2
      obtain ⟨hold, hst⟩ := hmoved.kept hn heases hflag
      obtain ⟨hflag0, hst0⟩ := hkept hout hold
      exact ⟨hflag0, hst.trans hst0⟩

/-- One item is written alone. -/
theorem apply_one {w : Write} (hc : Consistent ∅ tx) (hnew : w.creating = false)
    (heases : w.closes → Eases {w.n} tx.items) (h : tx.apply w = .ok tx') :
    Consistent ∅ tx' ∧ Kept tx.items tx'.items := by
  have hone : {m | m ∈ [w.n]} = ({w.n} : Set Nat) := by
    ext m
    simp
  have hstart : Updating w.closes {m | m ∈ [w.n]} tx.items [w.n] tx :=
    updating_start hc (hone ▸ heases)
  exact (updating_step Iff.rfl hnew (by simp) hstart h).over

theorem updateOne_ok {u : Update} {write : Nat → Write} (h : updateOne u write tx n = .ok tx') :
    tx.apply (write n) = .ok tx' := by
  unfold updateOne at h
  obtain ⟨it, -, h⟩ := except_bind_ok.mp h
  obtain ⟨_, -, h⟩ := except_bind_ok.mp h
  exact h

theorem update_ok {u : Update} (hc : Consistent ∅ tx)
    (heases : u.closes → Eases {m | m ∈ u.ns} tx.items)
    (h : tx.update u = .ok tx') : Consistent ∅ tx' ∧ Kept tx.items tx'.items := by
  unfold BoardTx.update at h
  obtain ⟨_, -, h⟩ := except_bind_ok.mp h
  obtain ⟨_, -, h⟩ := except_bind_ok.mp h
  obtain ⟨write, hwrite, h⟩ := except_bind_ok.mp h
  have hsame : {m | m ∈ u.ns} = {m | m ∈ fromKeys u.ns} := by
    ext m
    simp [mem_fromKeys]
  have hstart := updating_start (l := fromKeys u.ns) hc (hsame ▸ heases)
  have hall : Updating u.closes {m | m ∈ fromKeys u.ns} tx.items [] tx' := by
    refine (foldlM_rest (fun l tx2 => (∀ m ∈ l, m ∈ fromKeys u.ns) ∧
      Updating u.closes {m | m ∈ fromKeys u.ns} tx.items l tx2) ?_ ⟨fun m hm => hm, hstart⟩ h).2
    rintro n l tx1 tx2 ⟨hin, hinv⟩ hone
    obtain ⟨hnum, hnew, hcl⟩ := Update.write_ok hwrite n
    have happly := updateOne_ok hone
    refine ⟨fun m hm => hin m (List.mem_cons_of_mem n hm), ?_⟩
    refine updating_step hcl hnew ?_ ?_ happly
    · exact hnum.symm ▸ hin n List.mem_cons_self
    · rw [hnum]
      exact hinv
  exact hall.over

theorem createOne_ok {spec : Fields} (hc : Consistent ∅ tx) (h : createOne tx spec = .ok tx') :
    Consistent ∅ tx' ∧ Stays tx.items tx'.items := by
  obtain ⟨given, -, h⟩ := except_bind_ok.mp h
  obtain ⟨holders, -, h⟩ := except_bind_ok.mp h
  obtain ⟨title, htitle⟩ : ∃ title, given.getD "" = title := ⟨_, rfl⟩
  simp only [htitle] at h
  have hself : (tx.addItem title).items[tx.board.nextNumber]? =
      some (newItem tx.board.nextNumber title tx.now tx.actor.pid) := by
    rw [addItem_items, if_pos rfl]
  have hfresh : ∀ a, ¬ Edge (tx.addItem title).items a tx.board.nextNumber :=
    fun a ha => (addItem_edge hc ha).2 rfl
  have hc1 : Consistent (insert tx.board.nextNumber ∅) (tx.addItem title) :=
    (addItem_ok hc).weaken (Set.empty_subset _)
  have hok := apply_ok hc1 hself (fun _ => rfl)
    (fun _ m _ it hit hb => absurd ⟨it, hit, hb⟩ (hfresh m)) h
  refine ⟨hok.consistent, ?_⟩
  intro m it hit
  have hm : m ≠ tx.board.nextNumber := by
    have := (hc.numbered m it hit).2
    omega
  obtain ⟨it', hit', hmoved⟩ := hok.others m hm it (addItem_other hc hit)
  refine ⟨it', hit', fun hflag => ⟨hmoved.suggestion hflag, ?_⟩⟩
  rcases hmoved.status with hst | ⟨-, hb, -⟩
  · exact hst
  · exact absurd ⟨it, addItem_other hc hit, hb⟩ (hfresh m)

theorem create_ok {specs : List Fields} (hc : Consistent ∅ tx) (h : tx.create specs = .ok tx') :
    Consistent ∅ tx' ∧ Kept tx.items tx'.items := by
  unfold BoardTx.create at h
  obtain ⟨_, -, h⟩ := except_bind_ok.mp h
  obtain ⟨_, -, h⟩ := except_bind_ok.mp h
  have hall : Consistent ∅ tx' ∧ Stays tx.items tx'.items := by
    refine foldlM_rest (fun _ tx2 => Consistent ∅ tx2 ∧ Stays tx.items tx2.items) ?_
      ⟨hc, .refl _⟩ h
    rintro spec _ tx1 tx2 ⟨hc1, hstays⟩ hone
    obtain ⟨hc2, hstays2⟩ := createOne_ok hc1 hone
    exact ⟨hc2, hstays.trans hstays2⟩
  exact ⟨hall.1, hall.2.kept⟩

/-! ## Touching -/

theorem suggest_ok {it old : Item} {request : Value} {messageId : Option String}
    (hc : Consistent ∅ tx) (hold : tx.items[n]? = some old) (hopen : old.status.closed = false) :
    Touched tx (tx.suggest n it request messageId) := by
  have hsame : Touched tx tx := touched_of_quiet hc (.refl tx)
  have hraise : ∀ (tx1 : BoardTx) (detail : Value), Quiet tx tx1 →
      Touched tx (tx1.raiseFlag n suggested detail) := by
    intro tx1 detail hq
    obtain ⟨mid, hmid, hr⟩ := hq.forth n old hold
    have ht : Tagged tx1 (tx1.raiseFlag n suggested detail) :=
      raiseFlag_tagged (by decide) hmid (hr.status ▸ hopen)
    exact ⟨(hc.quiet hq).tagged ht, (still_of_quiet hq).trans (still_of_tagged ht)⟩
  unfold suggest
  obtain ⟨keyword, hkeyword⟩ : ∃ keyword, firstChars 20 (if truthy (request.idx "keyword") then
    str (request.idx "keyword") else "") = keyword := ⟨_, rfl⟩
  simp only [hkeyword]
  split
  · exact hsame
  split
  · exact hsame
  split
  · exact hsame
  have hraised : ∀ (c : Bool) (detail : Value), Touched tx
      ((if c = true then tx.resolveFlag n suggested "superseded" none else tx).raiseFlag n suggested
        detail) := by
    intro c detail
    cases c
    · exact hraise tx detail (.refl tx)
    · exact hraise _ detail quiet_resolveFlag
  split
  · exact hraised _ _
  · exact (hraised _ _).quiet quiet_pushAll

theorem suggest_after {it old : Item} {request : Value} {messageId : Option String}
    (hc : Consistent ∅ tx) (hq : Quiet tx tx') (hold : tx.items[n]? = some old)
    (hopen : old.status.closed = false) : Touched tx (tx'.suggest n it request messageId) := by
  obtain ⟨now, hnow, hr⟩ := hq.forth n old hold
  exact .after hq (suggest_ok (hc.quiet hq) hnow (hr.status ▸ hopen))

theorem touchOne_ok {t : Touch} (hc : Consistent ∅ tx) : Touched tx (touchOne t tx n) := by
  have hsame : Touched tx tx := touched_of_quiet hc (.refl tx)
  unfold touchOne
  split
  · next it hskip hit =>
    have hopen : it.status.closed = false := by
      unfold skipReason at hskip
      rw [hit] at hskip
      by_contra hne
      simp only [Option.filter_some] at hskip
      split at hskip
      · cases hskip
      · next it2 hit2 =>
        split at hit2
        · obtain rfl := Option.some.inj hit2
          rw [if_pos (by simpa using hne)] at hskip
          cases hskip
        · cases hit2
    simp only
    obtain ⟨mid, hmid⟩ : ∃ mid, (if tx.actor.pid ∈ it.holders.map Holder.pid then tx.checkIn n
      else tx) = mid := ⟨_, rfl⟩
    have hq : Quiet tx mid := by
      rw [← hmid]
      split
      · exact quiet_checkIn
      · exact .refl tx
    simp only [hmid]
    split
    · split
      · exact suggest_after hc (hq.trans quiet_event) hit hopen
      · exact touched_of_quiet hc (hq.trans quiet_event)
    · exact touched_of_quiet hc (hq.trans quiet_event)
  · exact hsame

theorem touch_ok {t : Touch} (hc : Consistent ∅ tx) : Touched tx (tx.touch t) := by
  unfold BoardTx.touch
  induction fromKeys t.ns generalizing tx with
  | nil => exact touched_of_quiet hc (.refl tx)
  | cons n l ih =>
    have hone : Touched tx (touchOne t tx n) := touchOne_ok hc
    have hrest := ih hone.1
    exact ⟨hrest.1, hone.2.trans hrest.2⟩

/-! ## Resolving -/

/-- A write made after an item's flags are resolved. -/
theorem apply_resolved {w : Write} (hc : Consistent ∅ tx) (hq : Quiet tx tx')
    (hnew : w.creating = false) (heases : w.closes → Eases {w.n} tx.items) {tx'' : BoardTx}
    (h : tx'.apply w = .ok tx'') : Consistent ∅ tx'' ∧ Kept tx.items tx''.items :=
  outcome_after hq (apply_one (hc.quiet hq) hnew (fun hcl => eases_quiet (heases hcl) hq) h)

theorem answer_ok {r : Resolve} {it : Item} (hc : Consistent ∅ tx)
    (h : tx.answer r it = .ok tx') : Consistent ∅ tx' ∧ Kept tx.items tx'.items := by
  obtain ⟨_, -, h⟩ := except_bind_ok.mp h
  obtain ⟨said, -, h⟩ := except_bind_ok.mp h
  obtain ⟨mid, happly, h⟩ := except_bind_ok.mp h
  obtain rfl := except_pure_ok.mp h
  refine outcome_before (apply_resolved hc quiet_resolveFlags rfl ?_ happly) quiet_recordResolution
  intro hcl
  unfold Write.closes Write.plain at hcl
  simp only [List.lookup_cons_self, Option.some.injEq, Value.str.injEq] at hcl
  split at hcl <;> exact absurd hcl (by decide)

theorem confirm_ok {r : Resolve} {it : Item} (hc : Consistent ∅ tx)
    (haction : r.action = "apply" ∨ r.action = "dismiss")
    (heases : r.closes → Eases {r.n} tx.items) (h : tx.confirm r it = .ok tx') :
    Consistent ∅ tx' ∧ Kept tx.items tx'.items := by
  obtain ⟨flag, -, h⟩ := except_bind_ok.mp h
  obtain ⟨_, -, h⟩ := except_bind_ok.mp h
  obtain ⟨_, hsame, h⟩ := except_bind_ok.mp h
  rw [except_refuse_ok] at hsame
  simp only at h
  split at h
  · obtain ⟨mid, hmid, h⟩ := except_bind_ok.mp h
    obtain rfl := except_pure_ok.mp hmid
    obtain rfl := except_pure_ok.mp h
    exact outcome_quiet hc ((quiet_resolveFlag.trans quiet_dismiss).trans quiet_recordResolution)
  · next hdismiss =>
    obtain ⟨mid, hmid, h⟩ := except_bind_ok.mp h
    obtain rfl := except_pure_ok.mp h
    have happly : r.action = "apply" := haction.resolve_right hdismiss
    refine outcome_before (apply_resolved hc quiet_resolveFlag rfl
      (fun hcl => heases ⟨happly, ?_⟩) hmid) quiet_recordResolution
    have htarget : flag.detail.idx "to" = .str "done" := by
      unfold Write.closes Write.plain at hcl
      simpa using hcl
    have hgiven : Value.str (r.toStatus.getD "") = .str "done" := by
      by_contra hne
      exact hsame ⟨happly, by rw [htarget]; exact hne⟩
    have hgiven' : r.toStatus.getD "" = "done" := Value.str.inj hgiven
    cases hto : r.toStatus with
    | none =>
      rw [hto] at hgiven'
      exact absurd hgiven' (by decide)
    | some s =>
      rw [hto] at hgiven'
      exact congrArg some hgiven'

theorem nudge_ok {r : Resolve} {it : Item} (hc : Consistent ∅ tx) (h : tx.nudge r it = .ok tx') :
    Consistent ∅ tx' ∧ Kept tx.items tx'.items := by
  obtain ⟨_, -, h⟩ := except_bind_ok.mp h
  obtain rfl := except_pure_ok.mp h
  refine outcome_quiet hc ?_
  have htouch : ∀ tx : BoardTx, Quiet tx (tx.modifyItem r.n fun it =>
      { it with touchedAt := some tx.now }) :=
    fun tx => quiet_modifyItem fun it => ⟨rfl, fun _ hk => hk⟩
  have hflags : ∀ (kinds : List String) (tx : BoardTx), Quiet tx (kinds.foldl (fun tx k =>
      tx.resolveFlag r.n k "nudge" (some (tx.now + snoozeSeconds tx.board k * 10 ^ 6))) tx) :=
    fun kinds tx => Quiet.foldl (fun _ _ => quiet_resolveFlag) kinds tx
  exact ((((hflags _ _).trans quiet_pushAll).trans (htouch _)).trans quiet_recordResolution).trans
    quiet_markDirty

theorem settleFlags_ok {r : Resolve} (hc : Consistent ∅ tx) (h : tx.settleFlags r = .ok tx') :
    Consistent ∅ tx' ∧ Kept tx.items tx'.items := by
  obtain ⟨write, hwrite, h⟩ := except_bind_ok.mp h
  cases write with
  | none =>
    obtain ⟨mid, hmid, h⟩ := except_bind_ok.mp h
    obtain rfl := except_pure_ok.mp hmid
    obtain rfl := except_pure_ok.mp h
    exact outcome_quiet hc (quiet_resolveFlags.trans quiet_recordResolution)
  | some w =>
    obtain ⟨mid, hmid, h⟩ := except_bind_ok.mp h
    obtain rfl := except_pure_ok.mp h
    obtain ⟨hnew, hnot⟩ := settlingWrite_ok hwrite
    exact outcome_before (apply_resolved hc quiet_resolveFlags hnew (fun hcl => absurd hcl hnot)
      hmid) quiet_recordResolution

theorem resolve_ok {r : Resolve} (hc : Consistent ∅ tx)
    (heases : r.closes → Eases {r.n} tx.items) (h : tx.resolve r = .ok tx') :
    Consistent ∅ tx' ∧ Kept tx.items tx'.items := by
  obtain ⟨it, -, h⟩ := except_bind_ok.mp h
  obtain ⟨_, -, h⟩ := except_bind_ok.mp h
  obtain ⟨_, -, h⟩ := except_bind_ok.mp h
  obtain ⟨_, -, h⟩ := except_bind_ok.mp h
  split at h
  · exact answer_ok hc h
  · split at h
    · next haction => exact confirm_ok hc haction heases h
    · split at h
      · exact nudge_ok hc h
      · exact settleFlags_ok hc h

/-! ## Transactions -/

/-- The items a request sets done. -/
def Request.closing : Request → Set Nat
  | .update args => {n | args.closes ∧ n ∈ args.ns}
  | .resolve args => {n | args.closes ∧ n = args.n}
  | _ => ∅

theorem run_ok {request : Request} (hc : Consistent ∅ tx)
    (heases : Eases request.closing tx.items) (h : tx.run request = .ok tx') :
    Consistent ∅ tx' ∧ Kept tx.items tx'.items := by
  cases request with
  | create specs => exact create_ok hc h
  | update args =>
    refine update_ok hc (fun hcl => ?_) h
    have hsame : Request.closing (.update args) = {m | m ∈ args.ns} := by
      ext m
      exact ⟨fun h => h.2, fun h => ⟨hcl, h⟩⟩
    exact hsame ▸ heases
  | touch args =>
    obtain rfl := Except.ok.inj h
    have htouched := touch_ok (t := args) hc
    exact ⟨htouched.1, htouched.2.kept⟩
  | resolve args =>
    refine resolve_ok hc (fun hcl => ?_) h
    have hsame : Request.closing (.resolve args) = {args.n} := by
      ext m
      exact ⟨fun h => h.2, fun h => ⟨hcl, h⟩⟩
    exact hsame ▸ heases

end

end Board
