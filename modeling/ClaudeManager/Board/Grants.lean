import Mathlib
import ClaudeManager.Board.Requests

/-!
# Launch grants follow the owner

* `store_tidy` — what a stored transaction leaves of seats and permits
* `write_tidy`, `unplace_tidy`, `archiveLink_tidy` — what item writes and archived links leave
-/

namespace Board

open Json Python Containers Program BoardTx

/-! ## Storing -/

/-- The seats of all boards. -/
def Org.chart (o : Org) : Chart := fun ref n => (o.boards[ref]?).bind fun s =>
  s.items[n]?.map Item.seat

/-- The numbers of a board's items were given out. -/
def Org.Numbered (o : Org) : Prop := ∀ (ref : String) (s : BoardState), o.boards[ref]? = some s →
  ∀ (n : Nat) (it : Item), s.items[n]? = some it → n < s.board.nextNumber

/-- The same seat, its holders in another order. -/
structure Seat.Resorted (s s' : Seat) : Prop where
  closed : s'.closed = s.closed
  taskId : s'.taskId = s.taskId
  linkArchivedAt : s'.linkArchivedAt = s.linkArchivedAt
  pids : ∀ h' ∈ s'.holders, ∃ h ∈ s.holders, h.pid = h'.pid
  owners : (ownerPids s'.holders).Perm (ownerPids s.holders)

namespace Seat.Resorted

variable {s s' : Seat}

theorem refl (s : Seat) : s.Resorted s := ⟨rfl, rfl, rfl, fun h hh => ⟨h, hh, rfl⟩, .refl _⟩

theorem links (h : s.Resorted s') (task : String) : s'.Links task ↔ s.Links task := by
  unfold Seat.Links
  rw [h.taskId, h.linkArchivedAt]

theorem proper (h : s.Resorted s') (hp : s.Proper) : s'.Proper where
  named := by
    intro k hk
    obtain ⟨k', hk', hpid⟩ := h.pids k hk
    exact hpid ▸ hp.named k' hk'
  single := fun task hl => h.owners.length_eq ▸ hp.single task ((h.links task).mp hl)

/-- One owner is the first owner in any order. -/
theorem launcher (h : s.Resorted s') (hone : (ownerPids s.holders).length ≤ 1) :
    s'.launcher = s.launcher := by
  have hsame : ownerPids s'.holders = ownerPids s.holders := by
    match hl : ownerPids s.holders, hone with
    | [], _ => exact List.perm_nil.mp (hl ▸ h.owners)
    | [p], _ => exact List.perm_singleton.mp (hl ▸ h.owners)
  unfold Seat.launcher
  rw [h.closed, ownerOf_congr hsame]

end Seat.Resorted

theorem reloaded_resorted {around : Around} {it : Item} :
    it.seat.Resorted (it.reloaded around).seat where
  closed := rfl
  taskId := rfl
  linkArchivedAt := rfl
  pids := by
    intro h' hh'
    obtain ⟨h, hh, rfl⟩ := List.mem_map.mp (List.mem_mergeSort.mp hh')
    exact ⟨h, hh, rfl⟩
  owners := by
    have hperm := ((List.mergeSort_perm (it.holders.map (Holder.stored around.now))
      (holderLe around.collate)).filter Holder.owns).map Holder.pid
    have hstored : ownerPids (it.holders.map (Holder.stored around.now)) =
        ownerPids it.holders := by
      refine ownerPids_congr ?_ ?_ <;> rw [List.map_map] <;> rfl
    exact hstored ▸ hperm

variable {e : Prop} {C C' : Chart} {P : Permits String String}

/-- The order of the holders does not matter. -/
theorem Tidy.resorted (h : Tidy e C P)
    (hback : ∀ a n s', C' a n = some s' → ∃ s, C a n = some s ∧ s.Resorted s')
    (hforth : ∀ a n s, C a n = some s → ∃ s', C' a n = some s' ∧ s.Resorted s') :
    Tidy e C' P where
  alone := by
    intro task a b n m s1 s2 h1 h2 hl1 hl2
    obtain ⟨s1', h1', hr1⟩ := hback a n s1 h1
    obtain ⟨s2', h2', hr2⟩ := hback b m s2 h2
    exact h.alone h1' h2' ((hr1.links task).mp hl1) ((hr2.links task).mp hl2)
  proper := by
    intro a n s' hs'
    obtain ⟨s, hs, hr⟩ := hback a n s' hs'
    exact hr.proper (h.proper hs)
  within := by
    intro a n s' task hs' hl
    obtain ⟨s, hs, hr⟩ := hback a n s' hs'
    have hlink := (hr.links task).mp hl
    rw [hr.launcher ((h.proper hs).single task hlink)]
    exact h.within hs hlink
  exact := by
    intro he a n s' task hs' hl
    obtain ⟨s, hs, hr⟩ := hback a n s' hs'
    have hlink := (hr.links task).mp hl
    rw [hr.launcher ((h.proper hs).single task hlink)]
    exact h.exact he hs hlink
  loose := by
    intro task hnone
    refine h.loose fun a n s hs hl => ?_
    obtain ⟨s', hs', hr⟩ := hforth a n s hs
    exact hnone a n s' hs' ((hr.links task).mpr hl)

theorem chart_insert {o : Org} {ref : String} {s : BoardState} {grants : List LaunchGrant} :
    Org.chart ⟨o.boards.insert ref s, grants⟩ =
      o.chart.on ref fun n => s.items[n]?.map Item.seat := by
  funext a
  unfold Chart.on
  by_cases ha : a = ref
  · subst ha
    rw [Function.update_self]
    funext n
    unfold Org.chart
    simp only [getElem?_insert_map, if_true, Option.bind_some]
  · rw [Function.update_of_ne ha]
    funext n
    unfold Org.chart
    simp only [getElem?_insert_map, if_neg ha]

theorem chart_board {o : Org} {ref : String} {s : BoardState} (hs : o.boards[ref]? = some s) :
    o.chart ref = fun n => s.items[n]?.map Item.seat := by
  funext n
  unfold Org.chart
  rw [hs]
  rfl

theorem Org.board_ok {o : Org} {ref : String} {s : BoardState} (h : o.board ref = .ok s) :
    o.boards[ref]? = some s := except_okOr_ok.mp h

/-- What the organisation keeps: tidy seats and permits, and numbers given out. -/
structure Org.Tidy (e : Prop) (o : Org) : Prop where
  tidy : Board.Tidy e o.chart (permits o.grants)
  numbered : o.Numbered

section

variable {o : Org} {around : Around} {ref : String} {tx : BoardTx} {s s' : BoardState}

theorem store_items (h : tx.store around = .ok s') (n : Nat) : s'.items[n]? =
    tx.items[n]?.map fun it => if n ∈ tx.holdersChanged then it.reloaded around else it := by
  obtain ⟨_, -, h⟩ := except_bind_ok.mp h
  obtain rfl := except_pure_ok.mp h
  show (tx.items.map _)[n]? = _
  rw [Std.ExtTreeMap.getElem?_map]

theorem store_board (h : tx.store around = .ok s') : s'.board = tx.board := by
  obtain ⟨_, -, h⟩ := except_bind_ok.mp h
  obtain rfl := except_pure_ok.mp h
  rfl

/-- A stored board: its seats with the holders sorted. -/
theorem store_tidy {grants : List LaunchGrant}
    (h : Tidy e (o.chart.on ref tx.seating.seat) (permits grants))
    (hstore : tx.store around = .ok s') (hnum : o.Numbered)
    (hnumtx : ∀ m s, tx.seating.seat m = some s → m < tx.board.nextNumber) :
    Org.Tidy e ⟨o.boards.insert ref s', grants⟩ := by
  have hsorted : ∀ (n : Nat) (it : Item), it.seat.Resorted
      (if n ∈ tx.holdersChanged then it.reloaded around else it).seat := by
    intro n it
    split
    · exact reloaded_resorted
    · exact .refl _
  refine ⟨h.resorted ?_ ?_, ?_⟩
  · intro a n s1 hs1
    rw [chart_insert] at hs1
    unfold Chart.on at hs1 ⊢
    by_cases ha : a = ref
    · subst ha
      rw [Function.update_self] at hs1 ⊢
      obtain ⟨it', hit', rfl⟩ := Option.map_eq_some_iff.mp hs1
      rw [store_items hstore] at hit'
      obtain ⟨it, hit, rfl⟩ := Option.map_eq_some_iff.mp hit'
      exact ⟨it.seat, congrArg (Option.map Item.seat) hit, hsorted n it⟩
    · rw [Function.update_of_ne ha] at hs1 ⊢
      exact ⟨s1, hs1, .refl s1⟩
  · intro a n s1 hs1
    rw [chart_insert]
    unfold Chart.on at hs1 ⊢
    by_cases ha : a = ref
    · subst ha
      rw [Function.update_self] at hs1 ⊢
      obtain ⟨it, hit, rfl⟩ := Option.map_eq_some_iff.mp hs1
      refine ⟨_, ?_, hsorted n it⟩
      rw [store_items hstore, hit]
      rfl
    · rw [Function.update_of_ne ha] at hs1 ⊢
      exact ⟨s1, hs1, .refl s1⟩
  · intro a s1 hs1 n it hit
    change (o.boards.insert ref s')[a]? = some s1 at hs1
    rw [getElem?_insert_map] at hs1
    split at hs1
    · obtain rfl := Option.some.inj hs1
      rw [store_items hstore] at hit
      obtain ⟨it0, hit0, -⟩ := Option.map_eq_some_iff.mp hit
      rw [store_board hstore]
      exact hnumtx n it0.seat (congrArg (Option.map Item.seat) hit0)
    · exact hnum a s1 hs1 n it hit

/-! ## Item writes -/

/-- The actor leads the board: it is Owner or the board's orchestrator. -/
def Leads (around : Around) (actor : Actor) (s : BoardState) : Prop :=
  actor.pid = ownerPid ∨ around.orchestratorPid = some actor.pid ∨
    s.board.orchestratorPid = some actor.pid

section

variable {actor : Actor} {groups : List Group} {uuid : Nat → String} {now : Instant}

theorem start_seating (h : BoardTx.start s.board s.items actor now groups uuid = .ok tx) :
    tx.ownerChanges = [] ∧ tx.actor.pid = actor.pid ∧ tx.board = s.board ∧ tx.items = s.items := by
  unfold BoardTx.start at h
  split at h
  · cases h
  · obtain rfl := Except.ok.inj h
    exact ⟨rfl, rfl, rfl, rfl⟩

theorem leads_may (hl : Leads around actor s) (hactor : tx.actor.pid = actor.pid)
    (hboard : tx.board = s.board) (old : Option String) :
    tx.seating.mayGrant around.orchestratorPid old = true := by
  have hpid : tx.seating.actor.pid = actor.pid := hactor
  have hrow : tx.seating.board = s.board := hboard
  unfold Seating.mayGrant
  rw [hpid, hrow]
  rcases hl with h | h | h <;> simp [h]

theorem start_holding (h : o.Tidy e) (hs : o.boards[ref]? = some s)
    (hstart : BoardTx.start s.board s.items actor now groups uuid = .ok tx)
    (hlead : e → Leads around actor s) (l : List Nat) :
    Holding e o.chart ref around.orchestratorPid (permits o.grants) l tx.seating := by
  obtain ⟨hchanges, hactor, hboard, hitems⟩ := start_seating hstart
  have hseat : o.chart ref = tx.seating.seat := by
    rw [chart_board hs]
    funext n
    show _ = tx.items[n]?.map Item.seat
    rw [hitems]
  have hmoved : tx.seating.moved around.orchestratorPid (permits o.grants) = permits o.grants := by
    unfold Seating.moved
    show tx.ownerChanges.foldl _ _ = _
    rw [hchanges]
    rfl
  refine ⟨?_, ?_, ?_, fun he old => leads_may (hlead he) hactor hboard old⟩
  · rw [hmoved, Chart.on_eq hseat]
    exact h.tidy
  · intro m s1 hs1
    change tx.items[m]?.map Item.seat = some s1 at hs1
    rw [hitems] at hs1
    obtain ⟨it, hit, -⟩ := Option.map_eq_some_iff.mp hs1
    show m < tx.board.nextNumber
    rw [hboard]
    exact h.numbered ref s hs m it hit
  · intro c hc
    change c ∈ tx.ownerChanges at hc
    rw [hchanges] at hc
    cases hc

end

section

variable [Runtime] {o' : Org} {actor : Actor}

theorem write_tidy {request : Request} (h : o.Tidy e)
    (hone : ∀ s, o.boards[ref]? = some s → request.OneOwner s.items)
    (hlead : e → ∀ s, o.boards[ref]? = some s → Leads around actor s ∧ request.ReopensFreely s.items)
    (hrun : o.write around ref actor request = .ok o') : o'.Tidy e := by
  obtain ⟨s, hs, hrun⟩ := except_bind_ok.mp hrun
  obtain ⟨tx, hstart, hrun⟩ := except_bind_ok.mp hrun
  obtain ⟨tx', hbody, hrun⟩ := except_bind_ok.mp hrun
  obtain ⟨s', hstore, hrun⟩ := except_bind_ok.mp hrun
  obtain rfl := except_pure_ok.mp hrun
  have hs := Org.board_ok hs
  obtain ⟨-, -, -, hitems⟩ := start_seating hstart
  have hholding := run_holding (start_holding h hs hstart fun he => (hlead he s hs).1)
    (hitems ▸ hone s hs) (fun he => hitems ▸ (hlead he s hs).2) hbody
  refine store_tidy ?_ hstore h.numbered hholding.numbered
  rw [permits_moveLaunchGrants]
  exact hholding.tidy

/-! ## Archiving a link -/

omit [Runtime] in
theorem liveLink_some {task : String} {n : Nat} {it : Item}
    (h : o.liveLink task = some (ref, n, it)) :
    ∃ s, o.boards[ref]? = some s ∧ s.items[n]? = some it ∧ it.seat.Links task := by
  obtain ⟨⟨ref', s⟩, hb, hfind⟩ := List.exists_of_findSome?_eq_some h
  obtain ⟨⟨n', it'⟩, hit, heq⟩ := Option.map_eq_some_iff.mp hfind
  obtain ⟨rfl, rfl, rfl⟩ : ref' = ref ∧ n' = n ∧ it' = it := by simpa using heq
  refine ⟨s, mem_toList_map.mp hb, natMap_mem_toList.mp (List.mem_of_find?_eq_some hit), ?_⟩
  have hlinks := List.find?_some hit
  unfold Item.linksTo at hlinks
  simp only [Bool.and_eq_true, decide_eq_true_eq, Option.isNone_iff_eq_none] at hlinks
  exact hlinks

omit [Runtime] in
theorem liveLink_none {task : String} (h : o.liveLink task = none) :
    ∀ a n s, o.chart a n = some s → ¬ s.Links task := by
  intro a n s hs hl
  obtain ⟨b, hb, hs⟩ := Option.bind_eq_some_iff.mp hs
  obtain ⟨it, hit, rfl⟩ := Option.map_eq_some_iff.mp hs
  have hnone := List.findSome?_eq_none_iff.mp h (a, b) (mem_toList_map.mpr hb)
  rw [Option.map_eq_none_iff, List.find?_eq_none] at hnone
  refine hnone (n, it) (natMap_mem_toList.mpr hit) ?_
  unfold Item.linksTo
  simp only [Bool.and_eq_true, decide_eq_true_eq, Option.isNone_iff_eq_none]
  exact hl

omit [Runtime] in
/-- An item that links nothing any more: the grants of its task go. -/
theorem unlink_tidy {P : Permits String String} {C : Chart} {task a : String} {n : Nat} {s s' : Seat}
    (h : Tidy e C P) (hs : C a n = some s) (hl : s.Links task) (hholders : s'.holders = s.holders)
    (hnot : ∀ task, ¬ s'.Links task) : Tidy e (C.put a n s') (P.clear task) := by
  refine h.move ⟨⟨?_, fun t ht => absurd ht (hnot t)⟩, fun t ht => absurd ht (hnot t),
    fun t ht => absurd ht (hnot t), fun _ t ht => absurd ht (hnot t), ?_, ?_⟩
  · intro k hk
    exact (h.proper hs).named k (hholders ▸ hk)
  · intro t _ hold
    exact Permits.clear_other fun he => hold s hs (he ▸ hl)
  · intro t _ s1 hs1 hl1
    obtain rfl := Option.some.inj (hs.symm.trans hs1)
    rw [hl1.unique hl]
    exact Permits.clear_self

omit [Runtime] in
theorem modifyItem_seat {n : Nat} {f : Item → Item} {it : Item} (hit : tx.items[n]? = some it) :
    (tx.modifyItem n f).seating.seat = Function.update tx.seating.seat n (some (f it).seat) := by
  funext m
  show (tx.modifyItem n f).items[m]?.map Item.seat = _
  rw [modifyItem_items]
  by_cases hm : m = n
  · rw [if_pos hm, hit, hm, Function.update_self]
    rfl
  · rw [if_neg hm, Function.update_of_ne hm]
    rfl

omit [Runtime] in
/-- A transaction that archives the live link of a task, with all its grants. -/
theorem archived_tidy {task reason : String} {n : Nat} {it : Item} {tx' : BoardTx}
    {f : Item → Item} {groups : List Group} {uuid : Nat → String}
    (h : o.Tidy e) (hlink : o.liveLink task = some (ref, n, it)) (hs : o.boards[ref]? = some s)
    (hstart : BoardTx.start s.board s.items actor around.now groups uuid = .ok tx)
    (hf : (f it).holders = it.holders ∧ (f it).linkArchivedAt ≠ none)
    (hseating : tx'.seating = (tx.modifyItem n f).seating) (hstore : tx'.store around = .ok s') :
    Org.Tidy e ⟨o.boards.insert ref s', revokeTaskGrants task actor around.now reason o.grants⟩ := by
  obtain ⟨s1, hs1, hit, hl⟩ := liveLink_some hlink
  obtain rfl := Option.some.inj (hs.symm.trans hs1)
  obtain ⟨-, -, hboard, hitems⟩ := start_seating hstart
  have hseat : o.chart ref = tx.seating.seat := by
    rw [chart_board hs]
    funext m
    show _ = tx.items[m]?.map Item.seat
    rw [hitems]
  have hmodified := modifyItem_seat (f := f) (hitems ▸ hit : tx.items[n]? = some it)
  have hin : o.chart ref n = some it.seat := by
    rw [chart_board hs]
    exact congrArg (Option.map Item.seat) hit
  refine store_tidy ?_ hstore h.numbered ?_
  · rw [permits_revokeTaskGrants, hseating, hmodified, ← hseat]
    exact unlink_tidy h.tidy hin hl hf.1 fun t ht => hf.2 ht.2
  · intro m s1 hs1
    have hrow : tx'.board = s.board := by
      have hb := congrArg Seating.board hseating
      exact hb.trans hboard
    rw [hseating, hmodified, ← hseat] at hs1
    rw [hrow]
    by_cases hm : m = n
    · exact h.numbered ref s hs m it (hm ▸ hit)
    · have hold := (Function.update_of_ne hm ..).symm.trans hs1
      rw [chart_board hs] at hold
      obtain ⟨it1, hit1, -⟩ := Option.map_eq_some_iff.mp hold
      exact h.numbered ref s hs m it1 hit1

theorem unplaceLocked_tidy {task : String} {n : Nat} {it : Item} {reason : Option String}
    (h : o.Tidy e) (hlink : o.liveLink task = some (ref, n, it))
    (hrun : o.unplaceLocked around ref actor task n it reason = .ok o') : o'.Tidy e := by
  obtain ⟨s, hs, hrun⟩ := except_bind_ok.mp hrun
  obtain ⟨_, -, hrun⟩ := except_bind_ok.mp hrun
  obtain ⟨tx, hstart, hrun⟩ := except_bind_ok.mp hrun
  obtain ⟨s', hstore, hrun⟩ := except_bind_ok.mp hrun
  obtain rfl := except_pure_ok.mp hrun
  refine archived_tidy h hlink (Org.board_ok hs) hstart (f := Item.unlinked around.now)
    ⟨rfl, by simp [Item.unlinked]⟩ ?_ hstore
  rw [seating_resolveFlags]
  unfold recordUnplaced
  rw [seating_event, seating_markDirty]

theorem unplace_tidy {task : String} {reason : Option String} (h : o.Tidy e)
    (hrun : o.unplace around actor task reason = .ok o') : o'.Tidy e := by
  obtain ⟨⟨ref, n, it⟩, hlink, hrun⟩ := except_bind_ok.mp hrun
  exact unplaceLocked_tidy h (except_okOr_ok.mp hlink) hrun

theorem archiveLink_tidy {task : String} (h : o.Tidy e)
    (hrun : o.archiveLink around actor task = .ok o') : o'.Tidy e := by
  unfold Org.archiveLink at hrun
  split at hrun
  · obtain rfl := Except.ok.inj hrun
    exact h
  · next ref n it hlink =>
    obtain ⟨s, hs, hrun⟩ := except_bind_ok.mp hrun
    obtain ⟨_, -, hrun⟩ := except_bind_ok.mp hrun
    obtain ⟨tx, hstart, hrun⟩ := except_bind_ok.mp hrun
    obtain ⟨s', hstore, hrun⟩ := except_bind_ok.mp hrun
    obtain rfl := except_pure_ok.mp hrun
    refine archived_tidy h hlink (Org.board_ok hs) hstart (f := fun it => { it with
      linkArchivedAt := some around.now
      archivedAt := it.archivedAt <|> some around.now }) ⟨rfl, by simp⟩ ?_ hstore
    unfold recordUnplaced
    rw [seating_event, seating_markDirty]

end

end

end Board
