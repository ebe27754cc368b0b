import Mathlib
import ClaudeManager.Board.Seats

/-!
# Writes that change who sits on an item

One write changes the seat of its item alone, and records a change of owner.

* `settle_seat` — what the first half of a write says of the holders
* `apply_reseats` — what the whole write makes of the seats
-/

namespace Board

open Json Python Containers Program BoardTx

variable {tx tx' : BoardTx}

/-! ## The holders a write leaves -/

section

variable {w : Write}

theorem newHolders_congr {it it' : Item} (h : it'.holders = it.holders) :
    newHolders w it' = newHolders w it := by
  unfold newHolders Write.prevPids
  rw [h]

/-- The holders that are set are the new ones, as far as their pids and roles go. -/
theorem setHolders_owners {d d' : Draft} (h : setHolders w d = d') :
    d'.tx.ownerChanges = d.tx.ownerChanges ∧
      (d'.it.holders = d.it.holders ∨ d'.it.holders = newHolders w d.it) ∧
      ownerPids d'.it.holders = ownerPids (newHolders w d.it) := by
  unfold setHolders at h
  split at h <;> subst h
  · exact ⟨rfl, .inr rfl, rfl⟩
  · next hsame =>
    refine ⟨rfl, .inl rfl, ?_⟩
    unfold holdersChange at hsame
    simp only [Bool.or_eq_true, decide_eq_true_eq, not_or, ne_eq, not_not] at hsame
    obtain ⟨⟨⟨hnew, hpid⟩, hrole⟩, -⟩ := hsame
    have hprev : w.prevPids d.it = d.it.holders.map Holder.pid := by
      unfold Write.prevPids
      rw [if_neg hnew]
    exact (ownerPids_congr (hpid.trans hprev) hrole).symm

/-- A closed item opens only where the write asks for an open status. -/
theorem deriveStatus_opens {tx : BoardTx} {it : Item} {explicit : Option Status}
    {held changed : Bool} (hnew : w.creating = false) (hclosed : it.status.closed = true)
    (hopen : (deriveStatus w tx it explicit held changed).1.closed = false) :
    ∃ t, explicit = some t ∧ t.closed = false := by
  unfold deriveStatus at hopen
  have hadds : ∀ status, ownerAdds w tx held status = false := by
    intro status
    simp [ownerAdds, hnew]
  cases explicit with
  | some t =>
    simp only [hadds, Bool.false_eq_true, if_false] at hopen
    exact ⟨t, rfl, hopen⟩
  | none =>
    have hheld : (statusOfHolders w tx it held changed).1 = it.status := by
      unfold statusOfHolders
      simp [hnew, hclosed]
    simp only [hadds, Bool.false_eq_true, if_false, hheld] at hopen
    unfold statusOfFields at hopen
    rw [if_pos hclosed, hclosed] at hopen
    cases hopen

/-! ## The first half of a write -/

variable {d d' : Draft} {v : Value}

theorem withField_owners {key : String} {f : Value → Draft → Except Fault Draft}
    (hf : ∀ {v d d'}, f v d = .ok d' → d'.tx.ownerChanges = d.tx.ownerChanges)
    (h : withField w key f d = .ok d') : d'.tx.ownerChanges = d.tx.ownerChanges := by
  unfold withField at h
  split at h
  · exact hf h
  · obtain rfl := Except.ok.inj h
    rfl

theorem setTitle_owners (h : setTitle w v d = .ok d') :
    d'.tx.ownerChanges = d.tx.ownerChanges := by
  obtain ⟨title, -, h⟩ := except_bind_ok.mp h
  obtain rfl := except_pure_ok.mp h
  simp only
  split <;> rfl

theorem setNote_owners (h : setNote v d = .ok d') : d'.tx.ownerChanges = d.tx.ownerChanges := by
  obtain ⟨note, -, h⟩ := except_bind_ok.mp h
  obtain rfl := except_pure_ok.mp h
  rfl

theorem setTeam_owners (h : setTeam v d = .ok d') : d'.tx.ownerChanges = d.tx.ownerChanges := by
  obtain ⟨team, -, h⟩ := except_bind_ok.mp h
  obtain rfl := except_pure_ok.mp h
  rfl

theorem setLinks_owners (h : setLinks v d = .ok d') : d'.tx.ownerChanges = d.tx.ownerChanges := by
  obtain ⟨links, -, h⟩ := except_bind_ok.mp h
  obtain rfl := except_pure_ok.mp h
  rfl

theorem setBlockedOn_owners (h : setBlockedOn v d = .ok d') :
    d'.tx.ownerChanges = d.tx.ownerChanges := by
  obtain ⟨trigger, -, h⟩ := except_bind_ok.mp h
  obtain rfl := except_pure_ok.mp h
  rfl

theorem setJob_owners (h : setJob v d = .ok d') : d'.tx.ownerChanges = d.tx.ownerChanges := by
  obtain ⟨job, -, h⟩ := except_bind_ok.mp h
  obtain rfl := except_pure_ok.mp h
  rfl

theorem setBlockers_owners (h : setBlockers w d = .ok d') :
    d'.tx.ownerChanges = d.tx.ownerChanges := by
  unfold setBlockers at h
  split at h
  · obtain rfl := Except.ok.inj h
    rfl
  · obtain ⟨wanted, -, h⟩ := except_bind_ok.mp h
    obtain ⟨_, -, h⟩ := except_bind_ok.mp h
    simp only at h
    split at h <;> obtain rfl := except_pure_ok.mp h <;> rfl

theorem settleBlocked_owners {status : Status} (h : settleBlocked w status d = .ok d') :
    d'.tx.ownerChanges = d.tx.ownerChanges ∧ d'.it.holders = d.it.holders := by
  unfold settleBlocked at h
  split at h
  · obtain ⟨-, -, h⟩ := except_bind_ok.mp h
    obtain ⟨-, -, h⟩ := except_bind_ok.mp h
    obtain rfl := except_pure_ok.mp h
    refine ⟨?_, rfl⟩
    simp only
    split <;> rfl
  · split at h <;> obtain rfl := Except.ok.inj h <;> exact ⟨rfl, rfl⟩

section

variable [Runtime]

theorem push_owners {tx : BoardTx} {n : Nat} {h : Holder} {kind text : String} :
    (tx.push n h kind text).ownerChanges = tx.ownerChanges :=
  congrArg Seating.ownerChanges seating_push

theorem setDescription_owners (h : setDescription w v d = .ok d') :
    d'.tx.ownerChanges = d.tx.ownerChanges := by
  obtain ⟨description, -, h⟩ := except_bind_ok.mp h
  split at h
  · obtain rfl := except_pure_ok.mp h
    rfl
  · obtain rfl := except_pure_ok.mp h
    simp only [notifyDescription]
    split_ifs <;> first | rfl | exact congrArg Seating.ownerChanges seating_pushAll

theorem resolveGroup_owners {tx tx' : BoardTx} {groupId name : Value} {g : Option Group}
    (h : resolveGroup tx groupId name = .ok (tx', g)) : tx'.ownerChanges = tx.ownerChanges := by
  unfold resolveGroup at h
  split at h
  · simp only at h
    split at h
    · obtain ⟨rfl, -⟩ := Prod.mk.inj (Except.ok.inj h)
      rfl
    · cases h
  · obtain ⟨name, -, h⟩ := except_bind_ok.mp h
    cases name with
    | none =>
      obtain ⟨rfl, -⟩ := Prod.mk.inj (except_pure_ok.mp h)
      rfl
    | some name =>
      simp only at h
      split at h
      · obtain ⟨rfl, -⟩ := Prod.mk.inj (except_pure_ok.mp h)
        rfl
      · obtain ⟨rfl, -⟩ := Prod.mk.inj (except_pure_ok.mp h)
        rfl
      · cases h
      · obtain ⟨rfl, -⟩ := Prod.mk.inj (except_pure_ok.mp h)
        rfl

theorem setGroup_owners (h : setGroup w d = .ok d') : d'.tx.ownerChanges = d.tx.ownerChanges := by
  unfold setGroup at h
  split at h
  · obtain ⟨⟨tx, g⟩, hg, h⟩ := except_bind_ok.mp h
    have howners := resolveGroup_owners hg
    cases g with
    | none =>
      obtain rfl := except_pure_ok.mp h
      exact howners
    | some g =>
      obtain ⟨-, -, h⟩ := except_bind_ok.mp h
      obtain rfl := except_pure_ok.mp h
      exact howners
  · obtain rfl := Except.ok.inj h
    rfl

theorem setCheckBack_owners (h : setCheckBack w v d = .ok d') :
    d'.tx.ownerChanges = d.tx.ownerChanges := by
  obtain ⟨time, -, h⟩ := except_bind_ok.mp h
  obtain ⟨-, -, h⟩ := except_bind_ok.mp h
  obtain rfl := except_pure_ok.mp h
  rfl

theorem setEta_owners (h : setEta v d = .ok d') : d'.tx.ownerChanges = d.tx.ownerChanges := by
  obtain ⟨time, -, h⟩ := except_bind_ok.mp h
  obtain rfl := except_pure_ok.mp h
  rfl

theorem setFields_owners (h : setFields w d = .ok d') :
    d'.tx.ownerChanges = d.tx.ownerChanges := by
  unfold setFields at h
  obtain ⟨d1, h1, h⟩ := except_bind_ok.mp h
  obtain ⟨d2, h2, h⟩ := except_bind_ok.mp h
  obtain ⟨d3, h3, h⟩ := except_bind_ok.mp h
  obtain ⟨d4, h4, h⟩ := except_bind_ok.mp h
  obtain ⟨d5, h5, h⟩ := except_bind_ok.mp h
  obtain ⟨d6, h6, h⟩ := except_bind_ok.mp h
  obtain ⟨d7, h7, h⟩ := except_bind_ok.mp h
  obtain ⟨d8, h8, h⟩ := except_bind_ok.mp h
  obtain ⟨d9, h9, h⟩ := except_bind_ok.mp h
  rw [withField_owners setEta_owners h, withField_owners setJob_owners h9,
    withField_owners setCheckBack_owners h8, withField_owners setBlockedOn_owners h7,
    withField_owners setLinks_owners h6, withField_owners setTeam_owners h5, setGroup_owners h4,
    withField_owners setNote_owners h3, withField_owners setDescription_owners h2,
    withField_owners setTitle_owners h1]

/-- What a settled write says of the item's holders. -/
structure SettledSeat (w : Write) (tx : BoardTx) (before : Item) (s : Settled) : Prop where
  owners : s.tx.ownerChanges = tx.ownerChanges
  writable : w.creating = false → before.linkArchivedAt = none
  holders : s.it.holders = before.holders ∨ s.it.holders = newHolders w before
  owner : ownerPids s.it.holders = ownerPids (newHolders w before)
  opens : w.creating = false → before.status.closed = true → s.it.status.closed = false →
    ∃ t : Status, w.fields.lookup "status" = some (.str t.name) ∧ t.closed = false

theorem settle_seat {before : Item} {s : Settled} (h : settle w ⟨tx, before⟩ = .ok s) :
    SettledSeat w tx before s := by
  unfold settle at h
  obtain ⟨_, hwritable, h⟩ := except_bind_ok.mp h
  obtain ⟨explicit, hexplicit, h⟩ := except_bind_ok.mp h
  obtain ⟨d1, hfields, h⟩ := except_bind_ok.mp h
  have hstep := (setFields_ok hfields).1
  obtain ⟨d2, hd2⟩ : ∃ d2, setHolders w d1 = d2 := ⟨_, rfl⟩
  rw [hd2] at h
  obtain ⟨howners2, hholders2, howner2⟩ := setHolders_owners hd2
  obtain ⟨-, hit2, -⟩ := setHolders_spec hd2
  obtain ⟨d3, hblockers, h⟩ := except_bind_ok.mp h
  obtain ⟨-, hit3, -⟩ := setBlockers_spec hblockers
  obtain ⟨held, hheld⟩ : ∃ held, decide (newHolders w d1.it ≠ []) = held := ⟨_, rfl⟩
  rw [hheld] at h
  obtain ⟨status, hstatus⟩ : ∃ status, (deriveStatus w d3.tx d3.it explicit held
    (holdersChange w d1.it)).1 = status := ⟨_, rfl⟩
  simp only [hstatus] at h
  obtain ⟨_, -, h⟩ := except_bind_ok.mp h
  obtain ⟨_, -, h⟩ := except_bind_ok.mp h
  obtain ⟨_, -, h⟩ := except_bind_ok.mp h
  obtain ⟨d4, hblocked, h⟩ := except_bind_ok.mp h
  obtain ⟨howners4, hholders4⟩ := settleBlocked_owners hblocked
  obtain ⟨d5, hset, h⟩ := except_bind_ok.mp h
  obtain ⟨htx5, hit5, -⟩ := settleEta_spec hset
  obtain ⟨d6, hjob, h⟩ := except_bind_ok.mp h
  obtain ⟨htx6, hit6, -⟩ := settleJob_spec hjob
  obtain ⟨_, -, h⟩ := except_bind_ok.mp h
  obtain rfl := except_pure_ok.mp h
  -- After `setHolders` no step touches the holders.
  have hlate : d6.it.holders = d2.it.holders := by
    have h6 : d6.it.holders = d4.it.holders := by
      rcases hit5 with h5 | h5 <;> rcases hit6 with h6 | h6 <;> rw [h6, h5] <;> rfl
    have h3 : d3.it.holders = d2.it.holders := by rw [hit3]
    exact (h6.trans hholders4).trans h3
  have hsame : newHolders w d1.it = newHolders w before := newHolders_congr hstep.holders
  refine ⟨?_, ?_, ?_, ?_, ?_⟩
  · show d6.tx.ownerChanges = tx.ownerChanges
    rw [htx6, htx5, howners4]
    show d3.tx.ownerChanges = tx.ownerChanges
    rw [setBlockers_owners hblockers, howners2, setFields_owners hfields]
  · intro hnew
    obtain ⟨_, -, hlink⟩ := except_bind_ok.mp hwritable
    by_contra hne
    exact except_refuse_ok.mp hlink ⟨hne, hnew⟩
  · show d6.it.holders = before.holders ∨ d6.it.holders = newHolders w before
    rw [hlate, ← hstep.holders, ← hsame]
    exact hholders2
  · show ownerPids d6.it.holders = ownerPids (newHolders w before)
    rw [hlate, howner2, hsame]
  · intro hnew hclosed hopen
    have hs3 : d3.it.status = before.status := by
      rw [hit3, hit2]
      exact hstep.status
    have hopen' : (deriveStatus w d3.tx d3.it explicit held
        (holdersChange w d1.it)).1.closed = false := by
      rw [hstatus]
      exact hopen
    obtain ⟨t, rfl, ht⟩ := deriveStatus_opens hnew (hs3 ▸ hclosed) hopen'
    exact ⟨t, explicitStatus_some hexplicit, ht⟩

/-! ## One write -/

/-- The entry a write makes of its item's change of owner, if it is one. -/
def ownerEntry (n : Nat) (prevOwner : Option String) (prev : Option Status) (it : Item) :
    List OwnerChange :=
  let now := it.holders.find? Holder.owns
  if it.status.closed = true ∧ isSet prevOwner = true ∧ some it.status ≠ prev then
    [(n, prevOwner, none)]
  else if now.map Holder.pid ≠ prevOwner ∧ it.status.closed = false then [(n, prevOwner, now)]
  else []

omit [Runtime] in
theorem seating_recordOwner {prevOwner : Option String} {prev : Option Status} :
    (tx.recordOwner n prevOwner prev it).seating = { tx.seating with
      ownerChanges := tx.ownerChanges ++ ownerEntry n prevOwner prev it } := by
  unfold recordOwner ownerEntry
  simp only
  split_ifs
  · rfl
  · rfl
  · rw [List.append_nil]
    rfl

/-- What a write makes of who sits on its item, which is `before` and then `after`. -/
structure Reseats (w : Write) (tx tx' : BoardTx) (before after : Item) : Prop where
  mem : tx.items[w.n]? = some before
  writable : w.creating = false → before.linkArchivedAt = none
  taskId : after.taskId = before.taskId
  linkArchivedAt : after.linkArchivedAt = before.linkArchivedAt
  holders : after.holders = before.holders ∨ after.holders = newHolders w before
  owner : ownerPids after.holders = ownerPids (newHolders w before)
  opens : w.creating = false → before.status.closed = true → after.status.closed = false →
    ∃ t : Status, w.fields.lookup "status" = some (.str t.name) ∧ t.closed = false
  seating : tx'.seating = { tx.seating with
    ownerChanges := tx.ownerChanges ++
      ownerEntry w.n (ownerOf before.holders) (w.prevStatus before) after
    seat := Function.update tx.seating.seat w.n (some after.seat) }

theorem apply_reseats {w : Write} (h : tx.apply w = .ok tx') :
    ∃ before after : Item, Reseats w tx tx' before after := by
  obtain ⟨before, hitem, h⟩ := except_bind_ok.mp h
  obtain ⟨s, hsettle, h⟩ := except_bind_ok.mp h
  have hmem : tx.items[w.n]? = some before := by
    unfold BoardTx.item at hitem
    split at hitem
    · next it hit =>
      obtain rfl := Except.ok.inj hitem
      exact hit
    · cases hitem
  have hok := settle_ok hsettle
  have hseat := settle_seat hsettle
  unfold commit at h
  obtain ⟨mid, hdeps, h⟩ := except_bind_ok.mp h
  obtain rfl := except_pure_ok.mp h
  have hstart : s.tx.seating = tx.seating := by
    unfold seating
    rw [hok.marked.board, hok.marked.items, hseat.owners]
    have hactor : s.tx.actor = tx.actor := congrArg Ledger.actor hok.marked.rest
    rw [hactor]
  refine ⟨before, s.it, hmem, hseat.writable, congrArg Identity.taskId hok.identity,
    congrArg Identity.linkArchivedAt hok.identity, hseat.holders, hseat.owner, hseat.opens, ?_⟩
  simp only [seating_finish, seating_tellDependents, seating_closeOrReopen,
    seating_settleSuggestion]
  rw [seating_recheckDeps hdeps]
  unfold announce
  simp only [seating_recordTransition, seating_warnStrict, seating_clearPickOwner]
  have howners : (s.tx.setItem w.n s.it).ownerChanges = tx.ownerChanges := hseat.owners
  rw [seating_recordOwner, seating_setItem, hstart, howners]

end

end

end Board
