import Mathlib
import ClaudeManager.Board.Grants

/-!
# Every run of placed tasks

* `placeItem_places`, `place_tidy` — a task gets its item, and the owner his grant
* `grants_runs` — nobody but the owner may launch; the owner may, where Owner and the board's
  orchestrator act and no closed item is reopened with the owner it had
* `reopened_ungranted` — an owner who may not launch
-/

namespace Board

open Json Python Containers Program BoardTx

variable {e : Prop} {o o' : Org} {around : Around} {ref : String} {tx tx' : BoardTx} {n : Nat}
  {task : String}

/-- What placing makes of a transaction that recorded nothing before: the item is the task's
link, and its owner, if it has one, is recorded. -/
structure Places (task : String) (n : Nat) (tx tx' : BoardTx) (s' : Seat) : Prop where
  links : s'.Links task
  named : ∀ h ∈ s'.holders, h.pid ≠ ""
  few : (ownerPids s'.holders).length ≤ 1
  seat : tx'.seating.seat = Function.update tx.seating.seat n (some s')
  changes : (tx'.ownerChanges = [] ∧ s'.holders.find? Holder.owns = none) ∨
    ∃ old new, tx'.ownerChanges = [(n, old, new)] ∧
      (s'.closed = true ∨ new = s'.holders.find? Holder.owns)
  may : ∀ orchestrator old, tx'.seating.mayGrant orchestrator old =
    tx.seating.mayGrant orchestrator old
  number : n < tx'.board.nextNumber
  next : tx.board.nextNumber ≤ tx'.board.nextNumber
  fresh : ∀ s, tx.seating.seat n = some s → ∀ task, ¬ s.Links task

/-- A task gets its item, and the permits its owner. -/
theorem Places.tidy {s' : Seat} {C : Chart} {P : Permits String String}
    {orchestrator : Option String} (hp : Places task n tx tx' s') (h : Tidy e C P)
    (hseat : C ref = tx.seating.seat) (hnone : ∀ a m s, C a m = some s → ¬ s.Links task)
    (hmay : e → ∀ old, tx.seating.mayGrant orchestrator old = true) :
    Tidy e (C.on ref tx'.seating.seat) (tx'.seating.moved orchestrator P) := by
  have hin : tx'.seating.seat n = some s' := by
    rw [hp.seat]
    exact Function.update_self ..
  have hchart : C.on ref tx'.seating.seat = C.put ref n s' := by
    rw [hp.seat, ← hseat]
    rfl
  have hempty : P task = ∅ := h.loose hnone
  have hpassed : Permits.Within (tx'.seating.moved orchestrator P task) s'.launcher ∧
      (e → Permits.Exact (tx'.seating.moved orchestrator P task) s'.launcher) := by
    have hstart : Permits.Within (P task) none := hempty ▸ Permits.within_empty
    unfold Seating.moved
    show Permits.Within (tx'.ownerChanges.foldl _ P task) _ ∧ (e → Permits.Exact
      (tx'.ownerChanges.foldl _ P task) _)
    rcases hp.changes with ⟨hnil, howner⟩ | ⟨old, new, hone, hnew⟩
    · have hlauncher : s'.launcher = none := by
        unfold Seat.launcher ownerOf
        rw [howner, Option.map_none, ite_self]
      rw [hnil, hlauncher, List.foldl_nil, hempty]
      exact ⟨Permits.within_empty, fun _ => Permits.exact_empty⟩
    · rw [hone, List.foldl_cons, List.foldl_nil, move_linked hin hp.links, Permits.hand_self]
      -- Whatever owner was recorded before, nobody had a permit.
      have hnobody : Permits.Within (P task) (old.filter (· ≠ "")) := by
        rw [hempty]
        exact Permits.within_empty
      by_cases hclosed : s'.closed = true
      · have hlauncher : s'.launcher = none := if_pos hclosed
        have hno : ¬ (s'.closed = false ∧ tx'.seating.mayGrant orchestrator old = true) := by
          simp [hclosed]
        rw [hlauncher, if_neg hno]
        have hexact := hnobody.passed_exact (b := none)
        exact ⟨hexact.within, fun _ => hexact⟩
      · have hlauncher : s'.launcher = new.map Holder.pid := by
          rw [hnew.resolve_left hclosed]
          exact if_neg hclosed
        have hopen : s'.closed = false := by simpa using hclosed
        rw [hlauncher]
        refine ⟨hnobody.passed ?_, fun he => ?_⟩
        · simp only
          split
          · exact .inr rfl
          · exact .inl rfl
        · simp only [hopen, hp.may, hmay he, and_self, if_true]
          exact hnobody.passed_exact
  rw [hchart]
  refine h.move ⟨⟨hp.named, fun _ _ => hp.few⟩, ?_, ?_, ?_, ?_, ?_⟩
  · intro t ht b m s hs hl
    exact absurd (ht.unique hp.links ▸ hl) (hnone b m s hs)
  · intro t ht
    exact ht.unique hp.links ▸ hpassed.1
  · intro he t ht
    exact ht.unique hp.links ▸ hpassed.2 he
  · intro t ht _
    have hother : s'.taskId ≠ some t := fun heq => ht ⟨heq, hp.links.2⟩
    refine entry_other hin (fun c hc => ?_) hother
    rcases hp.changes with ⟨hnil, -⟩ | ⟨old, new, hone, -⟩
    · change c ∈ tx'.ownerChanges at hc
      rw [hnil] at hc
      cases hc
    · change c ∈ tx'.ownerChanges at hc
      rw [hone] at hc
      rw [List.mem_singleton.mp hc]
  · intro t _ s hs hl
    rw [hseat] at hs
    exact absurd hl (hp.fresh s hs t)

section

variable [Runtime]

/-! ## Placing -/

omit [Runtime] in
theorem oneHolder_few {v named : Value} {l : List Holder}
    (h : (if truthy v = true then do return [← holder named] else .ok []) = .ok l) :
    l.length ≤ 1 ∧ ∀ k ∈ l, k.pid ≠ "" := by
  split at h
  · obtain ⟨k, hk, h⟩ := except_bind_ok.mp h
    obtain rfl := except_pure_ok.mp h
    refine ⟨Nat.le_refl 1, fun k' hk' => ?_⟩
    obtain rfl := List.mem_singleton.mp hk'
    exact holder_pid hk
  · obtain rfl := Except.ok.inj h
    exact ⟨Nat.zero_le _, fun k hk => by cases hk⟩

omit [Runtime] in
theorem holders_few {args : Placing} {team : Option Team} {l : List Holder}
    (h : args.holders team = .ok l) : l.length ≤ 1 ∧ ∀ k ∈ l, k.pid ≠ "" := by
  unfold Placing.holders at h
  cases team with
  | some team => exact oneHolder_few h
  | none =>
    simp only at h
    cases hv : args.holder with
    | none =>
      rw [hv] at h
      obtain rfl := Except.ok.inj h
      exact ⟨Nat.zero_le _, fun k hk => by cases hk⟩
    | some v =>
      rw [hv] at h
      exact oneHolder_few h

omit [Runtime] in
theorem noteTeam_seating {team : Option Team} {holders : List Holder} :
    (tx.noteTeam team holders).seating = tx.seating := by
  unfold noteTeam
  split <;> rfl

omit [Runtime] in
/-- A loop that keeps its best or takes the next one ends with one of those it saw. -/
theorem foldl_kept {α : Type} {f : Option α → α → Option α}
    (hf : ∀ best a, f best a = some a ∨ f best a = best) :
    ∀ {l : List α} {best : Option α} {r : α}, l.foldl f best = some r → r ∈ l ∨ best = some r
  | [], _, _, h => .inr h
  | a :: l, best, r, h => by
    rw [List.foldl_cons] at h
    rcases foldl_kept hf h with hl | hbest
    · exact .inl (List.mem_cons_of_mem a hl)
    · rcases hf best a with ha | hb
      · obtain rfl := Option.some.inj (ha.symm.trans hbest)
        exact .inl List.mem_cons_self
      · exact .inr (hb.symm.trans hbest)

omit [Runtime] in
theorem lastLink_task {items : Items} (h : lastLink items task = some n) :
    ∃ it, items[n]? = some it ∧ it.taskId = some task := by
  unfold lastLink at h
  obtain ⟨⟨m, it⟩, hfold, rfl⟩ := Option.map_eq_some_iff.mp h
  have hkept := foldl_kept (fun best a => by
    cases best with
    | none => exact .inl rfl
    | some b =>
      simp only
      split
      · exact .inl rfl
      · exact .inr rfl) hfold
  rcases hkept with hl | hbest
  · obtain ⟨hin, htask⟩ := List.mem_filter.mp hl
    exact ⟨it, natMap_mem_toList.mp hin, by simpa using htask⟩
  · cases hbest

omit [Runtime] in
/-- An entry names the new owner, unless the item is closed. -/
theorem ownerEntry_cases {prevOwner : Option String} {prev : Option Status} {it : Item} :
    ownerEntry n prevOwner prev it = [] ∨ ∃ old new, ownerEntry n prevOwner prev it =
      [(n, old, new)] ∧ (it.status.closed = true ∨ new = it.holders.find? Holder.owns) := by
  unfold ownerEntry
  simp only
  split
  · next hclose => exact .inr ⟨_, _, rfl, .inl hclose.1⟩
  · split
    · exact .inr ⟨_, _, rfl, .inr rfl⟩
    · exact .inl rfl

omit [Runtime] in
/-- The owner of a placed item is recorded, by the write or here. -/
theorem recordPlacedOwner_changes {holders : List Holder} {closed : Bool}
    (hitem : tx.items[n]?.map Item.holders = some holders)
    (hchanges : tx.ownerChanges = [] ∨ ∃ old new, tx.ownerChanges = [(n, old, new)] ∧
      (closed = true ∨ new = holders.find? Holder.owns)) :
    ((tx.recordPlacedOwner n).ownerChanges = [] ∧ holders.find? Holder.owns = none) ∨
      ∃ old new, (tx.recordPlacedOwner n).ownerChanges = [(n, old, new)] ∧
        (closed = true ∨ new = holders.find? Holder.owns) := by
  unfold recordPlacedOwner
  rw [hitem, Option.bind_some]
  cases hfind : holders.find? Holder.owns with
  | none =>
    simp only
    rcases hchanges with hnil | ⟨old, new, hone, hnew⟩
    · exact .inl ⟨hnil, trivial⟩
    · exact .inr ⟨old, new, hone, hfind ▸ hnew⟩
  | some owner =>
    simp only
    rcases hchanges with hnil | ⟨old, new, hone, hnew⟩
    · rw [if_neg (by simp [hnil])]
      refine .inr ⟨none, some owner, ?_, .inr rfl⟩
      simp only [hnil, List.nil_append]
    · rw [if_pos (by simp [hone])]
      exact .inr ⟨old, new, hone, hfind ▸ hnew⟩

omit [Runtime] in
/-- What a write left is placed: its item shows the task, and its owner is recorded. -/
theorem Reseats.places {w : Write} {before after : Item} {plan : PlanTask}
    (hr : Reseats w tx tx' before after) (hchanges : tx.ownerChanges = [])
    (hnamed : ∀ h ∈ after.holders, h.pid ≠ "")
    (hfew : (ownerPids (newHolders w before)).length ≤ 1) {tx2 : BoardTx}
    (hsame : tx2.seating.ownerChanges = tx'.seating.ownerChanges)
    (hactor : tx2.actor = tx'.actor ∧ tx2.board = tx'.board)
    (hseat2 : ∃ it, tx2.items[w.n]? = some it ∧ it.holders = after.holders ∧
      it.status.closed = after.status.closed ∧ it.linkArchivedAt = none)
    {tx0 : BoardTx} (hothers : ∀ m ≠ w.n, tx2.seating.seat m = tx0.seating.seat m)
    (hmay : ∀ orchestrator old, tx.seating.mayGrant orchestrator old =
      tx0.seating.mayGrant orchestrator old)
    (hnum : w.n < tx.board.nextNumber) (hnext : tx0.board.nextNumber ≤ tx.board.nextNumber)
    (hfresh : ∀ s, tx0.seating.seat w.n = some s → ∀ task, ¬ s.Links task) :
    Places plan.id w.n tx0 ((tx2.showTask w.n plan).recordPlacedOwner w.n)
      ⟨after.holders, after.status.closed, some plan.id, none⟩ := by
  obtain ⟨it, hit, hholders, hclosed, hlink2⟩ := hseat2
  have hshown : (tx2.showTask w.n plan).seating.seat =
      Function.update tx0.seating.seat w.n
        (some ⟨after.holders, after.status.closed, some plan.id, none⟩) := by
    unfold showTask
    rw [modifyItem_seat hit]
    funext m
    by_cases hm : m = w.n
    · rw [hm, Function.update_self, Function.update_self]
      unfold Item.seat
      simp only [hholders, hclosed, hlink2]
    · rw [Function.update_of_ne hm, Function.update_of_ne hm]
      exact hothers m hm
  have hitem : (tx2.showTask w.n plan).items[w.n]?.map Item.holders = some after.holders := by
    have hself := congrFun hshown w.n
    rw [Function.update_self] at hself
    obtain ⟨it', hit', heq⟩ := Option.map_eq_some_iff.mp hself
    rw [hit']
    exact congrArg (fun s : Seat => some s.holders) heq
  have hentries : (tx2.showTask w.n plan).ownerChanges =
      ownerEntry w.n (ownerOf before.holders) (w.prevStatus before) after := by
    show tx2.seating.ownerChanges = _
    rw [hsame, hr.seating]
    show tx.ownerChanges ++ _ = _
    rw [hchanges, List.nil_append]
  have hboard : (tx2.showTask w.n plan).board = tx.board :=
    hactor.2.trans (congrArg Seating.board hr.seating)
  have hpid : (tx2.showTask w.n plan).actor = tx.actor :=
    hactor.1.trans (congrArg Seating.actor hr.seating)
  have hrecorded : ∀ {tx3 : BoardTx}, tx3 = (tx2.showTask w.n plan).recordPlacedOwner w.n →
      tx3.seating.seat = (tx2.showTask w.n plan).seating.seat ∧ tx3.board = tx.board ∧
        tx3.actor = tx.actor := by
    rintro tx3 rfl
    unfold recordPlacedOwner
    split
    · split
      · exact ⟨rfl, hboard, hpid⟩
      · exact ⟨rfl, hboard, hpid⟩
    · exact ⟨rfl, hboard, hpid⟩
  obtain ⟨hseat3, hboard3, hpid3⟩ := hrecorded rfl
  refine ⟨⟨rfl, rfl⟩, hnamed, by show (ownerPids after.holders).length ≤ 1; rw [hr.owner]; exact hfew,
    hseat3.trans hshown, ?_, ?_, hboard3 ▸ hnum, hboard3 ▸ hnext, hfresh⟩
  · refine recordPlacedOwner_changes hitem ?_
    rw [hentries]
    exact ownerEntry_cases
  · intro orchestrator old
    have hb : ((tx2.showTask w.n plan).recordPlacedOwner w.n).seating.board = tx.seating.board :=
      hboard3
    have ha : ((tx2.showTask w.n plan).recordPlacedOwner w.n).seating.actor = tx.seating.actor :=
      hpid3
    refine Eq.trans ?_ (hmay orchestrator old)
    unfold Seating.mayGrant
    rw [hb, ha]

/-- An archived link is made live again. -/
theorem relink_places {plan : PlanTask} {args : Placing} {team : Option Team}
    {holders : List Holder} {tx1 tx2 : BoardTx} (hchanges : tx.ownerChanges = [])
    (hstart : tx1.seating = tx.seating) (hholders : args.holders team = .ok holders)
    (hproper : ∀ s, tx.seating.seat n = some s → s.Proper ∧ ∀ task, ¬ s.Links task)
    (hnum : n < tx.board.nextNumber)
    (hrun : tx1.relink n (args.spec team) holders = .ok tx2) :
    ∃ s', Places plan.id n tx ((tx2.showTask n plan).recordPlacedOwner n) s' := by
  obtain ⟨hfew, hpids⟩ := holders_few hholders
  obtain ⟨before, after, hr⟩ := apply_reseats hrun
  have hmem := hr.mem
  rw [modifyItem_items, if_pos rfl] at hmem
  obtain ⟨it, hit, hbefore⟩ := Option.map_eq_some_iff.mp hmem
  have hold : tx.seating.seat n = some it.seat := by
    rw [← hstart]
    exact congrArg (Option.map Item.seat) hit
  obtain ⟨hp, hnot⟩ := hproper it.seat hold
  have hheld : before.holders = it.holders := by rw [← hbefore]
  have hnamed : ∀ k ∈ before.holders, k.pid ≠ "" := by
    rw [hheld]
    exact hp.named
  have hseat := modifyItem_seat (f := fun it : Item => { it with
    linkArchivedAt := none
    archivedAt := none
    closedAt := if it.status.closed then none else it.closedAt }) hit
  refine ⟨_, Reseats.places hr ?_ ?_ ?_ rfl ⟨rfl, rfl⟩ ?_ ?_ ?_ ?_ ?_ ?_⟩
  · show tx1.seating.ownerChanges = []
    rw [hstart]
    exact hchanges
  · intro k hk
    rcases hr.holders with hsame | hsame
    · exact hnamed k (hsame ▸ hk)
    · rw [hsame] at hk
      exact newHolders_named (fun k hk => hpids k (by simpa using hk)) hnamed k hk
  · refine ownerPids_length_le.trans ((newHolders_length rfl).trans ?_)
    simpa using hfew
  · have hafter : tx2.seating.seat n = some after.seat := by
      rw [hr.seating]
      exact Function.update_self ..
    obtain ⟨it2, hit2, heq⟩ := Option.map_eq_some_iff.mp hafter
    refine ⟨it2, hit2, congrArg Seat.holders heq, congrArg Seat.closed heq, ?_⟩
    have hlink := congrArg Seat.linkArchivedAt heq
    refine hlink.trans (hr.linkArchivedAt.trans ?_)
    rw [← hbefore]
  · intro m hm
    rw [hr.seating]
    refine (Function.update_of_ne hm ..).trans ?_
    rw [hseat]
    exact (Function.update_of_ne hm ..).trans (congrFun (congrArg Seating.seat hstart) m)
  · intro orchestrator old
    show tx1.seating.mayGrant orchestrator old = _
    rw [hstart]
  · show n < tx1.seating.board.nextNumber
    rw [hstart]
    exact hnum
  · show _ ≤ tx1.seating.board.nextNumber
    rw [hstart]
    exact Nat.le_refl _
  · intro s hs task
    exact (hproper s hs).2 task

/-- A new item is made for the task. -/
theorem link_places {plan : PlanTask} {args : Placing} {team : Option Team}
    {holders : List Holder} {tx1 tx2 : BoardTx} (hchanges : tx.ownerChanges = [])
    (hstart : tx1.seating = tx.seating) (hholders : args.holders team = .ok holders)
    (hnumbered : ∀ m s, tx.seating.seat m = some s → m < tx.board.nextNumber)
    (hrun : tx1.link plan (args.spec team) holders = .ok tx2) :
    ∃ s', Places plan.id tx.board.nextNumber tx
      ((tx2.showTask tx.board.nextNumber plan).recordPlacedOwner tx.board.nextNumber) s' := by
  obtain ⟨hfew, -⟩ := holders_few hholders
  have hboard : tx1.board = tx.board := congrArg Seating.board hstart
  obtain ⟨mid, hcreate, hrun⟩ := except_bind_ok.mp hrun
  have htx2 := except_pure_ok.mp hrun
  unfold BoardTx.create at hcreate
  obtain ⟨_, -, hcreate⟩ := except_bind_ok.mp hcreate
  obtain ⟨_, -, hcreate⟩ := except_bind_ok.mp hcreate
  rw [List.foldlM_cons] at hcreate
  obtain ⟨mid', hone, hcreate⟩ := except_bind_ok.mp hcreate
  obtain rfl := except_pure_ok.mp hcreate
  obtain ⟨given, -, hone⟩ := except_bind_ok.mp hone
  obtain ⟨held, hheld, hone⟩ := except_bind_ok.mp hone
  have hlist : holderList (.arr (holders.map Holder.value)) = .ok held := hheld
  have hlength : held.length ≤ 1 := by
    rw [mapM_length hlist, List.length_map]
    exact hfew
  have hpids : ∀ k ∈ held, k.pid ≠ "" := holderList_pid hlist
  obtain ⟨before, after, hr⟩ := apply_reseats hone
  have hmem := hr.mem
  rw [addItem_items, if_pos rfl] at hmem
  have hbefore := (Option.some.inj hmem).symm
  have hnobody : ∀ k ∈ before.holders, k.pid ≠ "" := by
    rw [hbefore]
    intro k hk
    cases hk
  have hafter : mid'.seating.seat tx1.board.nextNumber = some after.seat := by
    rw [hr.seating]
    exact Function.update_self ..
  obtain ⟨it2, hit2, heq⟩ := Option.map_eq_some_iff.mp hafter
  rw [hboard] at hr hit2
  have hmodified : ((mid'.modifyItem tx.board.nextNumber fun it =>
      { it with taskId := some plan.id }).items[tx.board.nextNumber]?) =
        some { it2 with taskId := some plan.id } := by
    rw [modifyItem_items, if_pos rfl, hit2]
    rfl
  rw [hboard] at htx2
  have hitems : tx2.items[tx.board.nextNumber]? = some { it2 with taskId := some plan.id } := by
    rw [← htx2]
    exact hmodified
  have hcarried : tx2.seating.ownerChanges = mid'.seating.ownerChanges := by
    rw [← htx2]
    rfl
  have hkept : tx2.actor = mid'.actor ∧ tx2.board = mid'.board := by
    rw [← htx2]
    exact ⟨rfl, rfl⟩
  refine ⟨_, hr.places ?_ ?_ ?_ hcarried hkept ⟨_, hitems, ?_, ?_, ?_⟩ ?_ ?_ ?_ ?_ ?_⟩
  · show tx1.seating.ownerChanges = []
    rw [hstart]
    exact hchanges
  · intro k hk
    rcases hr.holders with hsame | hsame
    · exact hnobody k (hsame ▸ hk)
    · rw [hsame] at hk
      exact newHolders_named (fun k hk => hpids k (by simpa using hk)) hnobody k hk
  · refine ownerPids_length_le.trans ((newHolders_length rfl).trans ?_)
    simpa using hlength
  · exact congrArg Seat.holders heq
  · exact congrArg Seat.closed heq
  · have hlink := congrArg Seat.linkArchivedAt heq
    refine hlink.trans (hr.linkArchivedAt.trans ?_)
    rw [hbefore]
    rfl
  · intro m hm
    rw [← htx2]
    show (mid'.modifyItem tx.board.nextNumber _).seating.seat m = _
    rw [modifyItem_seat hit2, Function.update_of_ne hm, hr.seating]
    refine (Function.update_of_ne hm ..).trans ?_
    rw [addItem_seat, hboard]
    exact (Function.update_of_ne hm ..).trans (congrFun (congrArg Seating.seat hstart) m)
  · intro orchestrator old
    show tx1.seating.mayGrant orchestrator old = _
    rw [hstart]
  · show tx.board.nextNumber < tx1.board.nextNumber + 1
    rw [hboard]
    omega
  · show _ ≤ tx1.board.nextNumber + 1
    rw [hboard]
    omega
  · intro s hs
    exact absurd (hnumbered _ s hs) (Nat.lt_irrefl _)

/-- Placing gives the task its item: the one it had, or a new one. -/
theorem placeItem_places {plan : PlanTask} {args : Placing} {team : Option Team}
    (hchanges : tx.ownerChanges = [])
    (hproper : ∀ m s, tx.seating.seat m = some s → s.Proper ∧ ¬ s.Links plan.id)
    (hnumbered : ∀ m s, tx.seating.seat m = some s → m < tx.board.nextNumber)
    (hrun : tx.placeItem plan args team = .ok tx') :
    ∃ n s', Places plan.id n tx tx' s' := by
  obtain ⟨holders, hholders, hrun⟩ := except_bind_ok.mp hrun
  obtain ⟨tx1, htx1⟩ : ∃ tx1, tx.noteTeam team holders = tx1 := ⟨_, rfl⟩
  have hstart : tx1.seating = tx.seating := by
    rw [← htx1]
    exact noteTeam_seating
  have hboard : tx1.board = tx.board := congrArg Seating.board hstart
  rw [htx1] at hrun
  simp only at hrun
  cases hlast : lastLink tx1.items plan.id with
  | none =>
    rw [hlast] at hrun
    obtain ⟨tx2, hlink, hrun⟩ := except_bind_ok.mp hrun
    obtain rfl := except_pure_ok.mp hrun
    simp only [Option.getD_none, hboard]
    exact ⟨_, link_places hchanges hstart hholders hnumbered hlink⟩
  | some n =>
    rw [hlast] at hrun
    obtain ⟨tx2, hrelink, hrun⟩ := except_bind_ok.mp hrun
    obtain rfl := except_pure_ok.mp hrun
    simp only [Option.getD_some]
    obtain ⟨it, hit, htask⟩ := lastLink_task hlast
    have hold : tx.seating.seat n = some it.seat := by
      rw [← hstart]
      exact congrArg (Option.map Item.seat) hit
    refine ⟨n, relink_places hchanges hstart hholders (fun s hs => ?_) (hnumbered n _ hold) hrelink⟩
    obtain ⟨hp, hnot⟩ := hproper n s hs
    refine ⟨hp, fun task hl => hnot ?_⟩
    obtain rfl := Option.some.inj (hold.symm.trans hs)
    have hsame : task = plan.id := Option.some.inj (hl.1.symm.trans htask)
    exact hsame ▸ hl

/-- Placing a task that is on no board. -/
theorem transact_tidy {plan : PlanTask} {args : Placing} {team : Option Team} {actor : Actor}
    (h : o.Tidy e) (hnone : o.liveLink plan.id = none)
    (hlead : e → ∀ s, o.boards[ref]? = some s → Leads around actor s)
    (hrun : (o.transact around ref actor fun tx => tx.placeItem plan args team) = .ok o') :
    o'.Tidy e := by
  obtain ⟨s, hs, hrun⟩ := except_bind_ok.mp hrun
  obtain ⟨tx, hstart, hrun⟩ := except_bind_ok.mp hrun
  obtain ⟨tx', hbody, hrun⟩ := except_bind_ok.mp hrun
  obtain ⟨s', hstore, hrun⟩ := except_bind_ok.mp hrun
  obtain rfl := except_pure_ok.mp hrun
  have hs := Org.board_ok hs
  obtain ⟨hchanges, hactor, hboard, hitems⟩ := start_seating hstart
  have hseat : o.chart ref = tx.seating.seat := by
    rw [chart_board hs]
    funext m
    show _ = tx.items[m]?.map Item.seat
    rw [hitems]
  have hnumbered : ∀ m s, tx.seating.seat m = some s → m < tx.board.nextNumber := by
    intro m s1 hs1
    change tx.items[m]?.map Item.seat = some s1 at hs1
    rw [hitems] at hs1
    obtain ⟨it, hit, -⟩ := Option.map_eq_some_iff.mp hs1
    rw [hboard]
    exact h.numbered ref s hs m it hit
  obtain ⟨n, s2, hp⟩ := placeItem_places hchanges (fun m s1 hs1 =>
    ⟨h.tidy.proper (hseat ▸ hs1), liveLink_none hnone ref m s1 (hseat ▸ hs1)⟩) hnumbered hbody
  refine store_tidy ?_ hstore h.numbered ?_
  · rw [permits_moveLaunchGrants]
    exact hp.tidy h.tidy hseat (liveLink_none hnone)
      fun he old => leads_may (hlead he s hs) hactor hboard old
  · intro m s1 hs1
    rw [hp.seat] at hs1
    by_cases hm : m = n
    · rw [hm]
      exact hp.number
    · exact Nat.lt_of_lt_of_le (hnumbered m s1 ((Function.update_of_ne hm ..).symm.trans hs1))
        hp.next

omit [Runtime] in
theorem liveLink_eq_none (h : ∀ a m s, o.chart a m = some s → ¬ s.Links task) :
    o.liveLink task = none := by
  cases hlink : o.liveLink task with
  | none => rfl
  | some found =>
    obtain ⟨a, m, it⟩ := found
    obtain ⟨s, hs, hit, hl⟩ := liveLink_some hlink
    refine absurd hl (h a m it.seat ?_)
    rw [chart_board hs]
    exact congrArg (Option.map Item.seat) hit

/-- A task that was unplaced is on no board, and other boards stay. -/
theorem unplaceLocked_gone {actor : Actor} {it : Item} {reason : Option String} (h : o.Tidy e)
    (hlink : o.liveLink task = some (ref, n, it))
    (hrun : o.unplaceLocked around ref actor task n it reason = .ok o') :
    o'.liveLink task = none ∧ ∀ b ≠ ref, o'.boards[b]? = o.boards[b]? := by
  obtain ⟨s, hs, hrun⟩ := except_bind_ok.mp hrun
  obtain ⟨_, -, hrun⟩ := except_bind_ok.mp hrun
  obtain ⟨tx, hstart, hrun⟩ := except_bind_ok.mp hrun
  obtain ⟨s', hstore, hrun⟩ := except_bind_ok.mp hrun
  obtain rfl := except_pure_ok.mp hrun
  obtain ⟨s1, hs1, hit, hl⟩ := liveLink_some hlink
  obtain rfl := Option.some.inj ((Org.board_ok hs).symm.trans hs1)
  obtain ⟨-, -, -, hitems⟩ := start_seating hstart
  have hin : o.chart ref n = some it.seat := by
    rw [chart_board hs1]
    exact congrArg (Option.map Item.seat) hit
  refine ⟨liveLink_eq_none fun a m s2 hs2 hl2 => ?_, fun b hb => ?_⟩
  · rw [chart_insert] at hs2
    unfold Chart.on at hs2
    by_cases ha : a = ref
    · rw [ha, Function.update_self] at hs2
      obtain ⟨it2, hit2, rfl⟩ := Option.map_eq_some_iff.mp hs2
      rw [store_items hstore] at hit2
      obtain ⟨it3, hit3, hsame⟩ := Option.map_eq_some_iff.mp hit2
      have hl3 : it3.seat.Links task := by
        rw [← hsame] at hl2
        split at hl2
        · exact (reloaded_resorted.links task).mp hl2
        · exact hl2
      have hseat3 : ((tx.modifyItem n (Item.unlinked around.now)).seating.seat) m =
          some it3.seat := by
        have hseating : ∀ {tx' : BoardTx}, tx'.items[m]? = some it3 → tx'.seating =
            (tx.modifyItem n (Item.unlinked around.now)).seating →
            (tx.modifyItem n (Item.unlinked around.now)).seating.seat m = some it3.seat := by
          intro tx' hit' heq
          rw [← heq]
          exact congrArg (Option.map Item.seat) hit'
        refine hseating hit3 ?_
        rw [seating_resolveFlags]
        unfold recordUnplaced
        rw [seating_event, seating_markDirty]
      rw [modifyItem_seat (hitems ▸ hit : tx.items[n]? = some it)] at hseat3
      by_cases hm : m = n
      · rw [hm, Function.update_self] at hseat3
        have hlive := hl3.2
        rw [← Option.some.inj hseat3] at hlive
        exact absurd hlive (by simp [Item.unlinked, Item.seat])
      · rw [Function.update_of_ne hm] at hseat3
        have hold : o.chart ref m = some it3.seat := by
          rw [chart_board hs1, ← hitems]
          exact hseat3
        exact hm (h.tidy.alone hold hin hl3 hl).2
    · rw [Function.update_of_ne ha] at hs2
      exact ha (h.tidy.alone hs2 hin hl2 hl).1
  · show (o.boards.insert ref s')[b]? = _
    rw [getElem?_insert_map, if_neg hb]

/-- Placing keeps the permits with the owners. -/
theorem place_tidy {plan : PlanTask} {args : Placing} {actor : Actor} (h : o.Tidy e)
    (hlead : e → ∀ s, o.boards[ref]? = some s → Leads around actor s)
    (hrun : o.place around ref actor plan args = .ok o') : o'.Tidy e := by
  obtain ⟨_, -, hrun⟩ := except_bind_ok.mp hrun
  obtain ⟨_, -, hrun⟩ := except_bind_ok.mp hrun
  obtain ⟨_, -, hrun⟩ := except_bind_ok.mp hrun
  obtain ⟨team, -, hrun⟩ := except_bind_ok.mp hrun
  simp only at hrun
  split at hrun
  · next hnone => exact transact_tidy h hnone hlead hrun
  · next other n it hlink =>
    split at hrun
    · obtain rfl := Except.ok.inj hrun
      exact h
    · next hne =>
      obtain ⟨_, -, hrun⟩ := except_bind_ok.mp hrun
      obtain ⟨o1, hunplace, hrun⟩ := except_bind_ok.mp hrun
      obtain ⟨hgone, hboards⟩ := unplaceLocked_gone h hlink hunplace
      refine transact_tidy (unplaceLocked_tidy h hlink hunplace) hgone (fun he s hs => ?_) hrun
      rw [hboards ref fun heq => hne heq.symm] at hs
      exact hlead he s hs

/-! ## Runs -/

/-- Nothing the call writes leaves a placed item with two owners. -/
def Org.OneOwner (o : Org) (c : OrgCall) : Prop :=
  match c.action with
  | .write ref request => ∀ s, o.boards[ref]? = some s → request.OneOwner s.items
  | _ => True

omit [Runtime] in
/-- The call is made by Owner or the orchestrator of its board. -/
def Org.Led (o : Org) (c : OrgCall) : Prop :=
  match c.action with
  | .write ref _ | .place ref _ _ => ∀ s, o.boards[ref]? = some s → Leads c.around c.actor s
  | .unplace task _ | .archiveLink task => ∀ ref n it, o.liveLink task = some (ref, n, it) →
    ∀ s, o.boards[ref]? = some s → Leads c.around c.actor s

/-- The call reopens no placed item that keeps the owner it had. -/
def Org.ReopensFreely (o : Org) (c : OrgCall) : Prop :=
  match c.action with
  | .write ref request => ∀ s, o.boards[ref]? = some s → request.ReopensFreely s.items
  | _ => True

/-- Every call keeps the permits with the owners. -/
theorem step_tidy {c : OrgCall} (h : o.Tidy e) (hone : o.OneOwner c)
    (hsettles : e → o.Led c ∧ o.ReopensFreely c) : (o.step c).Tidy e := by
  unfold Org.step
  split
  · next o' hrun =>
    unfold Org.OneOwner at hone
    unfold Org.Led Org.ReopensFreely at hsettles
    unfold Org.run at hrun
    cases haction : c.action with
    | write ref request =>
      simp only [haction] at hone hsettles hrun
      exact write_tidy h hone (fun he s hs => ⟨(hsettles he).1 s hs, (hsettles he).2 s hs⟩) hrun
    | place ref plan args =>
      simp only [haction] at hsettles hrun
      exact place_tidy h (fun he => (hsettles he).1) hrun
    | unplace task reason =>
      simp only [haction] at hrun
      exact unplace_tidy h hrun
    | archiveLink task =>
      simp only [haction] at hrun
      exact archiveLink_tidy h hrun
  · exact h

omit [Runtime] in
/-- Who has a live grant for the task. -/
def Org.granted (o : Org) (task : String) : Set String :=
  {pid | ∃ g ∈ o.grants, g.live = true ∧ g.taskId = task ∧ g.pid = pid}

omit [Runtime] in
/-- The owner-role holders of the open item linked to the task. -/
def Org.owners (o : Org) (task : String) : Set String :=
  {pid | ∃ (ref : String) (s : BoardState) (n : Nat) (it : Item), o.boards[ref]? = some s ∧
    s.items[n]? = some it ∧ it.linksTo task = true ∧ it.status.closed = false ∧
      ∃ h ∈ it.holders, h.owns = true ∧ h.pid = pid}

omit [Runtime] in
/-- Boards on which no task was placed yet, and no grants. -/
structure Org.Fresh (o : Org) : Prop where
  numbered : o.Numbered
  unplaced : ∀ (ref : String) (s : BoardState), o.boards[ref]? = some s →
    ∀ (n : Nat) (it : Item), s.items[n]? = some it → it.taskId = none
  named : ∀ (ref : String) (s : BoardState), o.boards[ref]? = some s →
    ∀ (n : Nat) (it : Item), s.items[n]? = some it → ∀ h ∈ it.holders, h.pid ≠ ""
  ungranted : o.grants = []

omit [Runtime] in
theorem Org.Fresh.tidy (h : o.Fresh) : o.Tidy e := by
  have hloose : ∀ {task : String} {a : String} {n : Nat} {s : Seat}, o.chart a n = some s →
      ¬ s.Links task := by
    intro task a n s hs hl
    obtain ⟨b, hb, hs⟩ := Option.bind_eq_some_iff.mp hs
    obtain ⟨it, hit, rfl⟩ := Option.map_eq_some_iff.mp hs
    have hfree := h.unplaced a b hb n it hit
    exact absurd (hfree.symm.trans hl.1) (by simp)
  refine ⟨⟨fun hs _ hl _ => absurd hl (hloose hs), ?_, fun hs hl => absurd hl (hloose hs),
    fun _ _ _ _ _ hs hl => absurd hl (hloose hs), ?_⟩, h.numbered⟩
  · intro a n s hs
    refine ⟨?_, fun task hl => absurd hl (hloose hs)⟩
    obtain ⟨b, hb, hs⟩ := Option.bind_eq_some_iff.mp hs
    obtain ⟨it, hit, rfl⟩ := Option.map_eq_some_iff.mp hs
    exact h.named a b hb n it hit
  · intro task _
    ext pid
    unfold permits
    simp [h.ungranted]

omit [Runtime] in
/-- The one owner of a seat is its launcher. -/
theorem mem_launcher {s : Seat} (hone : (ownerPids s.holders).length ≤ 1) {pid : String} :
    s.launcher = some pid ↔ s.closed = false ∧ pid ∈ ownerPids s.holders := by
  have howner : ownerOf s.holders = (ownerPids s.holders).head? := by
    unfold ownerOf ownerPids
    rw [List.head?_map, List.head?_filter]
  unfold Seat.launcher
  rw [howner]
  cases s.closed with
  | true => simp
  | false =>
    match hl : ownerPids s.holders, hone with
    | [], _ => simp
    | [p], _ => simp [eq_comm]

omit [Runtime] in
theorem mem_owners {pid : String} : pid ∈ o.owners task ↔ ∃ a n s, o.chart a n = some s ∧
    s.Links task ∧ s.closed = false ∧ pid ∈ ownerPids s.holders := by
  unfold Org.owners
  constructor
  · rintro ⟨a, b, n, it, hb, hit, hl, hopen, h, hh, howns, rfl⟩
    refine ⟨a, n, it.seat, ?_, ?_, hopen, ?_⟩
    · rw [chart_board hb]
      exact congrArg (Option.map Item.seat) hit
    · unfold Item.linksTo at hl
      simp only [Bool.and_eq_true, decide_eq_true_eq, Option.isNone_iff_eq_none] at hl
      exact hl
    · exact List.mem_map_of_mem (List.mem_filter.mpr ⟨hh, howns⟩)
  · rintro ⟨a, n, s, hs, hl, hopen, hpid⟩
    obtain ⟨b, hb, hs⟩ := Option.bind_eq_some_iff.mp hs
    obtain ⟨it, hit, rfl⟩ := Option.map_eq_some_iff.mp hs
    obtain ⟨h, hh, rfl⟩ := List.mem_map.mp hpid
    obtain ⟨hmem, howns⟩ := List.mem_filter.mp hh
    refine ⟨a, b, n, it, hb, hit, ?_, hopen, h, hmem, howns, rfl⟩
    unfold Item.linksTo
    simp only [Bool.and_eq_true, decide_eq_true_eq, Option.isNone_iff_eq_none]
    exact hl

omit [Runtime] in
theorem Org.Tidy.owners_subsingleton (h : o.Tidy e) : (o.owners task).Subsingleton := by
  intro p hp q hq
  obtain ⟨a, n, s, hs, hl, hopen, hps⟩ := mem_owners.mp hp
  obtain ⟨b, m, s', hs', hl', -, hqs⟩ := mem_owners.mp hq
  obtain ⟨rfl, rfl⟩ := h.tidy.alone hs hs' hl hl'
  obtain rfl := Option.some.inj (hs.symm.trans hs')
  have hone := (h.tidy.proper hs).single task hl
  have hlp := (mem_launcher hone).mpr ⟨hopen, hps⟩
  have hlq := (mem_launcher hone).mpr ⟨hopen, hqs⟩
  exact Option.some.inj (hlp.symm.trans hlq)

omit [Runtime] in
theorem Org.Tidy.granted_subset (h : o.Tidy e) : o.granted task ⊆ o.owners task := by
  intro pid hpid
  change pid ∈ permits o.grants task at hpid
  by_cases hlinked : ∃ a n s, o.chart a n = some s ∧ s.Links task
  · obtain ⟨a, n, s, hs, hl⟩ := hlinked
    obtain ⟨hopen, howner⟩ := (mem_launcher ((h.tidy.proper hs).single task hl)).mp
      (h.tidy.within hs hl pid hpid)
    exact mem_owners.mpr ⟨a, n, s, hs, hl, hopen, howner⟩
  · rw [h.tidy.loose fun a n s hs hl => hlinked ⟨a, n, s, hs, hl⟩] at hpid
    exact absurd hpid (Set.notMem_empty pid)

omit [Runtime] in
theorem Org.Tidy.owners_subset (h : o.Tidy True) : o.owners task ⊆ o.granted task := by
  intro pid hpid
  obtain ⟨a, n, s, hs, hl, hopen, howner⟩ := mem_owners.mp hpid
  refine (h.tidy.exact trivial hs hl pid).mpr ?_
  exact (mem_launcher ((h.tidy.proper hs).single task hl)).mpr ⟨hopen, howner⟩

/-- Grants follow the owner: nobody but the one owner of the task's open item may launch; he
may, where Owner and orchestrators make the calls and none reopens an item with its owner. -/
theorem grants_runs (h : o.Fresh) {cs : List OrgCall} (hone : Meets Org.step Org.OneOwner o cs)
    (task : String) :
    ((cs.foldl Org.step o).owners task).Subsingleton ∧
      (cs.foldl Org.step o).granted task ⊆ (cs.foldl Org.step o).owners task ∧
      (Meets Org.step Org.Led o cs → Meets Org.step Org.ReopensFreely o cs →
        (cs.foldl Org.step o).granted task = (cs.foldl Org.step o).owners task) := by
  have htidy : (cs.foldl Org.step o).Tidy False :=
    Meets.invariant (I := Org.Tidy False) (fun o c hs hc => step_tidy hs hc False.elim) h.tidy hone
  refine ⟨htidy.owners_subsingleton, htidy.granted_subset, fun hled hfree => ?_⟩
  have hexact : (cs.foldl Org.step o).Tidy True :=
    Meets.invariant (I := Org.Tidy True)
      (fun o c hs hc => step_tidy hs hc.1 fun _ => hc.2) h.tidy (hone.and (hled.and hfree))
  exact Set.Subset.antisymm hexact.granted_subset hexact.owners_subset

end

/-! ## A task whose item is reopened -/

/-- A call of Owner, in an organisation of one board. -/
def ownerCall (action : Action) : OrgCall :=
  ⟨⟨ownerPid, some "Owner", none, none, none⟩, ⟨0, fun _ => "", [], none, fun a b => a ≤ b⟩, action⟩

def emptyOrg : Org := ⟨Std.ExtTreeMap.ofList [("b-1", emptyBoard)] compare, []⟩

/-- The task goes to a session, as owner. -/
def placeCall : OrgCall :=
  ownerCall (.place "b-1" ⟨"t-1", "backlog", none, false, some "p", some "schema", some "do it", 0⟩
    ⟨none, none, some (.obj [("daemon_id", .str "d"), ("name", .str "dev"),
      ("pid", .str "agent:d:u"), ("session_uid", .str "u")]), some "owner", false, none⟩)

/-- Owner sets the item's status. -/
def statusCall (status : Status) : OrgCall :=
  ownerCall (.write "b-1" (.update ⟨[1], [("status", .str status.name)], [], [], none, false, none,
    none, none⟩))

theorem fresh_emptyOrg : emptyOrg.Fresh := by
  have hnone : ∀ (ref : String) (s : BoardState), emptyOrg.boards[ref]? = some s →
      ∀ (n : Nat) (it : Item), s.items[n]? = some it → False := by
    intro ref s hs n it hit
    change (Std.ExtTreeMap.ofList [("b-1", emptyBoard)] compare)[ref]? = some s at hs
    have hbare : s.items = ∅ := by
      rw [Std.ExtTreeMap.ofList_singleton, getElem?_insert_map] at hs
      split at hs
      · rw [← Option.some.inj hs]
        rfl
      · simp at hs
    rw [hbare] at hit
    simp at hit
  exact ⟨fun ref s hs n it hit => (hnone ref s hs n it hit).elim,
    fun ref s hs n it hit => (hnone ref s hs n it hit).elim,
    fun ref s hs n it hit => (hnone ref s hs n it hit).elim, rfl⟩

theorem led_ownerCall {action : Action} : o.Led (ownerCall action) := by
  unfold Org.Led
  cases action with
  | write ref request => exact fun s _ => .inl rfl
  | place ref plan args => exact fun s _ => .inl rfl
  | unplace task reason => exact fun ref n it _ s _ => .inl rfl
  | archiveLink task => exact fun ref n it _ s _ => .inl rfl

theorem mem_granted {pid : String} : pid ∈ o.granted task ↔
    (o.grants.any fun g => g.live && g.taskId = task && g.pid = pid) = true := by
  unfold Org.granted
  rw [List.any_eq_true]
  simp [and_assoc]

/-- The items of a board that a test finds. -/
def Org.every (o : Org) (ref : String) (p : Item → Bool) : Bool :=
  (o.boards[ref]?).all fun s => s.items.toList.all fun e => p e.2

theorem every_item {p : Item → Bool} (h : o.every ref p = true) {s : BoardState}
    (hs : o.boards[ref]? = some s) {n : Nat} {it : Item} (hit : s.items[n]? = some it) :
    p it = true := by
  unfold Org.every at h
  rw [hs] at h
  exact List.all_eq_true.mp h (n, it) (natMap_mem_toList.mpr hit)

/-- Owner places a task and closes its item: nobody may launch. -/
theorem grants_runs_sample : letI := sampleRuntime
    ([placeCall, statusCall .done].foldl Org.step emptyOrg).granted "t-1" =
      ([placeCall, statusCall .done].foldl Org.step emptyOrg).owners "t-1" := by
  let _ := sampleRuntime
  have hitems : (emptyOrg.step placeCall).every "b-1" (fun it => it.status.closed = false &&
      (ownerPids it.holders).length ≤ 1) = true := by decide +kernel
  have hone : (emptyOrg.step placeCall).OneOwner (statusCall .done) := by
    intro s hs w hw it hit task _
    have hlist : w = ⟨1, [("status", .str "done")], none, [], [], none, false, false, false, none⟩ :=
      List.mem_singleton.mp hw
    have hfew := every_item hitems hs hit
    simp only [Bool.and_eq_true, decide_eq_true_eq] at hfew
    rw [hlist]
    exact newHolders_owners ⟨rfl, rfl, rfl⟩ rfl hfew.2
  have hfree : (emptyOrg.step placeCall).ReopensFreely (statusCall .done) := by
    intro s hs w _ it hit task _ hback
    have hopen := every_item hitems hs hit
    simp only [Bool.and_eq_true, decide_eq_true_eq] at hopen
    exact absurd (hopen.1.symm.trans hback.1) (by decide)
  have hmeets : Meets Org.step Org.OneOwner emptyOrg [placeCall, statusCall .done] :=
    ⟨trivial, hone, trivial⟩
  exact (grants_runs fresh_emptyOrg hmeets "t-1").2.2
    ⟨led_ownerCall, led_ownerCall, trivial⟩ ⟨trivial, hfree, trivial⟩

/-- Owner reopens the item of a placed task: its owner may not launch. -/
theorem reopened_ungranted : letI := sampleRuntime
    ¬ ∀ (o : Org) (cs : List OrgCall), o.Fresh → Meets Org.step Org.Led o cs → ∀ task,
      (cs.foldl Org.step o).granted task = (cs.foldl Org.step o).owners task := by
  let _ := sampleRuntime
  intro h
  have hsame := h emptyOrg [placeCall, statusCall .done, statusCall .active] fresh_emptyOrg
    ⟨led_ownerCall, led_ownerCall, led_ownerCall, trivial⟩ "t-1"
  have hno : ¬ "agent:d:u" ∈ ([placeCall, statusCall .done, statusCall .active].foldl Org.step
      emptyOrg).granted "t-1" := by
    rw [mem_granted]
    decide +kernel
  refine hno (hsame ▸ ?_)
  have hitem : ((([placeCall, statusCall .done, statusCall .active].foldl Org.step
      emptyOrg).boards["b-1"]?).bind fun s => s.items[1]?.map fun it =>
        (it.linksTo "t-1", it.status.closed, it.holders.map fun k => (k.owns, k.pid))) =
          some (true, false, [(true, "agent:d:u")]) := by decide +kernel
  obtain ⟨s, hs, hitem⟩ := Option.bind_eq_some_iff.mp hitem
  obtain ⟨it, hit, hitem⟩ := Option.map_eq_some_iff.mp hitem
  obtain ⟨hlinks, hrest⟩ := Prod.mk.inj hitem
  obtain ⟨hopen, hholders⟩ := Prod.mk.inj hrest
  have hmem : (true, "agent:d:u") ∈ it.holders.map fun k => (k.owns, k.pid) := by
    rw [hholders]
    exact List.mem_singleton.mpr rfl
  obtain ⟨k, hk, hpid⟩ := List.mem_map.mp hmem
  exact ⟨"b-1", s, 1, it, hs, hit, hlinks, hopen, k, hk, (Prod.mk.inj hpid).1, (Prod.mk.inj hpid).2⟩

end Board
