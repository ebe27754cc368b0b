import Mathlib
import ClaudeManager.Board.Owners
import ClaudeManager.Program.Runs

/-!
# Grants over one transaction

* `Request.writes` — the writes of a request that name holders or a status
* `Holding` — what holds of the seats and permits while a transaction goes over its items
* `run_holding` — every request keeps the permits with the owners
-/

namespace Board

open Json Python Containers Program BoardTx

/-! ## Holders of a request -/

theorem holder_pid {v : Value} {h : Holder} (hv : holder v = .ok h) : h.pid ≠ "" := by
  unfold holder at hv
  obtain ⟨pid, -, hv⟩ := except_bind_ok.mp hv
  obtain ⟨_, hset, hv⟩ := except_bind_ok.mp hv
  obtain ⟨role, -, hv⟩ := except_bind_ok.mp hv
  obtain rfl := except_pure_ok.mp hv
  exact except_refuse_ok.mp hset

theorem holderList_pid {v : Value} {l : List Holder} (hl : holderList v = .ok l) :
    ∀ h ∈ l, h.pid ≠ "" := by
  unfold holderList at hl
  split at hl
  · intro h hh
    obtain ⟨a, -, ha⟩ := mapM_mem hl h hh
    exact holder_pid ha
  · cases hl

theorem addedHolder_pid {role : Option String} {v : Value} {h : Holder}
    (hv : addedHolder role v = .ok h) : h.pid ≠ "" := by
  unfold addedHolder at hv
  split at hv <;> exact holder_pid hv

/-- A write that names nobody without a pid. -/
def Write.Named (w : Write) : Prop :=
  ∀ h ∈ (w.holders.getD [] ++ w.add) ++ w.owner.toList, h.pid ≠ ""

theorem newHolders_named {w : Write} {it : Item} (hw : w.Named)
    (hit : ∀ h ∈ it.holders, h.pid ≠ "") : ∀ h ∈ newHolders w it, h.pid ≠ "" := by
  intro h hh
  obtain ⟨h', hh', hpid⟩ := newHolders_pid hh
  rw [← hpid]
  unfold Write.named at hh'
  cases hholders : w.holders with
  | some l =>
    refine hw h' ?_
    rw [hholders] at hh' ⊢
    exact hh'
  | none =>
    rw [hholders, Option.getD_none, List.append_assoc] at hh'
    rcases List.mem_append.mp hh' with hh' | hh'
    · exact hit h' hh'
    · refine hw h' ?_
      rw [hholders, Option.getD_none, List.nil_append]
      exact hh'

theorem named_plain {n : Nat} {fields : Fields} {reason : Option String} :
    (Write.plain n fields reason).Named := by
  intro h hh
  cases hh

theorem Update.write_named {u : Update} {write : Nat → Write} (h : u.write = .ok write) (n : Nat) :
    (write n).Named := by
  unfold Update.write at h
  obtain ⟨replace, hreplace, h⟩ := except_bind_ok.mp h
  obtain ⟨_, -, h⟩ := except_bind_ok.mp h
  obtain ⟨adds, hadds, h⟩ := except_bind_ok.mp h
  obtain ⟨owner, howner, h⟩ := except_bind_ok.mp h
  obtain ⟨_, -, h⟩ := except_bind_ok.mp h
  obtain ⟨_, -, h⟩ := except_bind_ok.mp h
  obtain rfl := except_pure_ok.mp h
  intro k hk
  rcases List.mem_append.mp hk with hk | hk
  · rcases List.mem_append.mp hk with hk | hk
    · unfold replacement at hreplace
      split at hreplace
      · obtain rfl := Except.ok.inj hreplace
        cases hk
      · split at hreplace
        · obtain ⟨l, hl, hreplace⟩ := except_bind_ok.mp hreplace
          obtain rfl := except_pure_ok.mp hreplace
          exact holderList_pid hl k hk
        · obtain rfl := except_pure_ok.mp hreplace
          cases hk
    · obtain ⟨a, -, ha⟩ := mapM_mem hadds k hk
      exact addedHolder_pid ha
  · cases hu : u.owner with
    | none =>
      rw [hu] at howner
      obtain rfl := except_pure_ok.mp howner
      cases hk
    | some v =>
      rw [hu] at howner
      obtain ⟨o, ho, howner⟩ := except_bind_ok.mp howner
      obtain rfl := except_pure_ok.mp howner
      obtain rfl := List.mem_singleton.mp hk
      exact holder_pid ho

theorem settlingWrite_named {r : Resolve} {w : Write} (h : settlingWrite r = .ok (some w)) :
    w.n = r.n ∧ w.Named := by
  unfold settlingWrite at h
  split at h
  · obtain ⟨_, -, h⟩ := except_bind_ok.mp h
    obtain ⟨holders, hholders, h⟩ := except_bind_ok.mp h
    obtain rfl := Option.some.inj (except_pure_ok.mp h)
    refine ⟨rfl, fun k hk => ?_⟩
    exact holderList_pid hholders k (by simpa [Write.plain] using hk)
  · split at h
    · obtain ⟨fields, -, h⟩ := except_bind_ok.mp h
      obtain rfl := Option.some.inj (except_pure_ok.mp h)
      exact ⟨rfl, named_plain⟩
    · split at h
      · obtain rfl := Option.some.inj (Except.ok.inj h)
        exact ⟨rfl, named_plain⟩
      · cases h

/-- The writes of a request that name holders or a status of items already there. -/
def Request.writes : Request → List Write
  | .update u =>
    match u.write with
    | .ok write => (fromKeys u.ns).map write
    | .error _ => []
  | .resolve r =>
    match settlingWrite r with
    | .ok (some w) => [w]
    | _ => []
  | _ => []

/-! ## Seats and permits within a transaction -/

/-- What holds while a transaction goes over its items: `l` are those left. -/
structure Holding (e : Prop) (C : Chart) (ref : String) (orchestrator : Option String)
    (P : Permits String String) (l : List Nat) (σ : Seating) : Prop where
  tidy : Tidy e (C.on ref σ.seat) (σ.moved orchestrator P)
  numbered : ∀ m s, σ.seat m = some s → m < σ.board.nextNumber
  written : ∀ c ∈ σ.ownerChanges, c.1 ∉ l ∧ ∃ s, σ.seat c.1 = some s
  may : e → ∀ old, σ.mayGrant orchestrator old = true

variable {e : Prop} {C : Chart} {ref : String} {orchestrator : Option String}
  {P : Permits String String} {l : List Nat} {tx tx' : BoardTx} {w : Write} {before after : Item}

theorem Holding.rest {n : Nat} {σ : Seating} (h : Holding e C ref orchestrator P (n :: l) σ) :
    Holding e C ref orchestrator P l σ :=
  ⟨h.tidy, h.numbered,
    fun c hc => ⟨fun hm => (h.written c hc).1 (List.mem_cons_of_mem n hm), (h.written c hc).2⟩, h.may⟩

theorem Holding.item (h : Holding e C ref orchestrator P l tx.seating) {n : Nat} {it : Item}
    (hit : tx.items[n]? = some it) : it.seat.Proper := by
  refine h.tidy.proper (a := ref) (n := n) ?_
  rw [Chart.on_self]
  exact congrArg (Option.map Item.seat) hit

/-- One write of the items left. -/
theorem Holding.apply (h : Holding e C ref orchestrator P (w.n :: l) tx.seating) (hl : w.n ∉ l)
    (hr : Reseats w tx tx' before after) (hcreating : w.creating = true → before.taskId = none)
    (hnamed : w.Named)
    (hone : ∀ task, before.seat.Links task → (ownerPids (newHolders w before)).length ≤ 1)
    (hrestores : e → ∀ task, before.seat.Links task → ¬ w.Restores before) :
    Holding e C ref orchestrator P l tx'.seating where
  tidy := by
    refine h.tidy.apply hr (fun c hc he => ?_) hcreating
      (newHolders_named hnamed (h.item hr.mem).named) hone h.may hrestores
    exact (h.written c hc).1 (he ▸ List.mem_cons_self)
  numbered := by
    intro m s hs
    rw [hr.seating] at hs ⊢
    by_cases hm : m = w.n
    · exact h.numbered m before.seat (hm ▸ congrArg (Option.map Item.seat) hr.mem)
    · exact h.numbered m s ((Function.update_of_ne hm ..).symm.trans hs)
  written := by
    intro c hc
    rw [hr.seating] at hc
    have hafter : tx'.seating.seat w.n = some after.seat := by
      rw [hr.seating]
      exact Function.update_self ..
    rcases List.mem_append.mp hc with hc | hc
    · obtain ⟨hnot, s, hs⟩ := h.written c hc
      have hne : c.1 ≠ w.n := fun he => hnot (he ▸ List.mem_cons_self)
      refine ⟨fun hm => hnot (List.mem_cons_of_mem _ hm), s, ?_⟩
      rw [hr.seating]
      exact (Function.update_of_ne hne ..).trans hs
    · have hn := ownerEntry_n hc
      exact ⟨hn ▸ hl, after.seat, hn ▸ hafter⟩
  may := by
    intro he old
    have hmay := h.may he old
    unfold Seating.mayGrant at hmay ⊢
    rwa [hr.seating]

section

variable [Runtime]

/-! ## Effects without a write -/

theorem seating_suggest {n : Nat} {it : Item} {request : Value} {messageId : Option String} :
    (tx.suggest n it request messageId).seating = tx.seating := by
  unfold suggest
  obtain ⟨keyword, hkeyword⟩ : ∃ keyword, firstChars 20 (if truthy (request.idx "keyword") then
    str (request.idx "keyword") else "") = keyword := ⟨_, rfl⟩
  simp only [hkeyword]
  have hraised : ∀ (c : Bool) (detail : Value),
      ((if c = true then tx.resolveFlag n suggested "superseded" none else tx).raiseFlag n suggested
        detail).seating = tx.seating := by
    intro c detail
    cases c <;> simp
  split
  · rfl
  split
  · rfl
  split
  · rfl
  split
  · exact hraised _ _
  · rw [seating_pushAll]
    exact hraised _ _

theorem seating_touchOne {t : Touch} {n : Nat} : (touchOne t tx n).seating = tx.seating := by
  unfold touchOne
  split
  · simp only
    split
    · split
      · rw [seating_suggest, seating_event]
        split <;> simp
      · rw [seating_event]
        split <;> simp
    · rw [seating_event]
      split <;> simp
  · rfl

theorem seating_touch {t : Touch} : (tx.touch t).seating = tx.seating :=
  seating_foldl fun _ _ => seating_touchOne

theorem seating_dismiss {n : Nat} {target : Value} : (tx.dismiss n target).seating = tx.seating := by
  unfold dismiss
  rw [seating_markDirty]
  exact seating_modifyItem fun _ _ => rfl

theorem seating_nudge {r : Resolve} {it : Item} (h : tx.nudge r it = .ok tx') :
    tx'.seating = tx.seating := by
  obtain ⟨_, -, h⟩ := except_bind_ok.mp h
  obtain rfl := except_pure_ok.mp h
  have htouch : ∀ tx : BoardTx, (tx.modifyItem r.n fun it =>
      { it with touchedAt := some tx.now }).seating = tx.seating :=
    fun tx => seating_modifyItem fun _ _ => rfl
  rw [seating_markDirty, seating_recordResolution, htouch, seating_pushAll]
  exact seating_foldl fun _ _ => seating_resolveFlag

/-! ## Resolving -/

/-- A resolution whose only effect on the seats is the write `w`, from `mid` to `mid'`. -/
structure Resolves (r : Resolve) (tx tx' mid mid' : BoardTx) (w : Write) : Prop where
  start : mid.seating = tx.seating
  stop : mid'.seating = tx'.seating
  apply : mid.apply w = .ok mid'
  n : w.n = r.n
  creating : w.creating = false
  named : w.Named
  holders : (w.holders = none ∧ w.add = [] ∧ w.owner = none) ∨ w ∈ (Request.resolve r).writes
  closed : ∀ it : Item, tx.items[r.n]? = some it → it.status.closed = true →
    w.fields.lookup "status" = some (.str "dropped")

/-- What a resolution leaves: the seats as they were, or as one write of its item makes them. -/
theorem resolve_cases {r : Resolve} (h : tx.resolve r = .ok tx') :
    tx'.seating = tx.seating ∨ ∃ mid mid' w, Resolves r tx tx' mid mid' w := by
  obtain ⟨it, hit, h⟩ := except_bind_ok.mp h
  obtain ⟨_, -, h⟩ := except_bind_ok.mp h
  obtain ⟨_, -, h⟩ := except_bind_ok.mp h
  obtain ⟨_, hclosed, h⟩ := except_bind_ok.mp h
  have hmem : tx.items[r.n]? = some it := by
    unfold BoardTx.item at hit
    split at hit
    · next it' hit' =>
      obtain rfl := Except.ok.inj hit
      exact hit'
    · cases hit
  have hopen : r.action ≠ "drop" → ∀ it' : Item, tx.items[r.n]? = some it' →
      it'.status.closed = true → False := by
    intro hne it' hit' hc
    obtain rfl := Option.some.inj (hmem.symm.trans hit')
    exact except_refuse_ok.mp hclosed ⟨hc, hne⟩
  split at h
  · next haction =>
    obtain ⟨_, -, h⟩ := except_bind_ok.mp h
    obtain ⟨said, -, h⟩ := except_bind_ok.mp h
    obtain ⟨mid, happly, h⟩ := except_bind_ok.mp h
    obtain rfl := except_pure_ok.mp h
    refine .inr ⟨_, mid, _, seating_resolveFlags, rfl, happly, rfl, rfl, ?_,
      .inl ⟨rfl, rfl, rfl⟩, ?_⟩
    · intro k hk
      cases hk
    · intro it' hit' hc
      exact (hopen (by rw [haction]; decide) it' hit' hc).elim
  split at h
  · next haction =>
    obtain ⟨flag, -, h⟩ := except_bind_ok.mp h
    obtain ⟨_, -, h⟩ := except_bind_ok.mp h
    obtain ⟨_, -, h⟩ := except_bind_ok.mp h
    simp only at h
    split at h
    · obtain ⟨mid, hmid, h⟩ := except_bind_ok.mp h
      obtain rfl := except_pure_ok.mp hmid
      obtain rfl := except_pure_ok.mp h
      left
      rw [seating_recordResolution, seating_dismiss, seating_resolveFlag]
    · obtain ⟨mid, hmid, h⟩ := except_bind_ok.mp h
      obtain rfl := except_pure_ok.mp h
      refine .inr ⟨_, mid, _, seating_resolveFlag, rfl, hmid, rfl, rfl, named_plain,
        .inl ⟨rfl, rfl, rfl⟩, ?_⟩
      intro it' hit' hc
      refine (hopen ?_ it' hit' hc).elim
      rcases haction with ha | ha <;> rw [ha] <;> decide
  split at h
  · exact .inl (seating_nudge h)
  obtain ⟨write, hwrite, h⟩ := except_bind_ok.mp h
  cases write with
  | none =>
    obtain ⟨mid, hmid, h⟩ := except_bind_ok.mp h
    obtain rfl := except_pure_ok.mp hmid
    obtain rfl := except_pure_ok.mp h
    left
    rw [seating_recordResolution, seating_resolveFlags]
  | some w =>
    obtain ⟨mid, hmid, h⟩ := except_bind_ok.mp h
    obtain rfl := except_pure_ok.mp h
    obtain ⟨hn, hnamed⟩ := settlingWrite_named hwrite
    refine .inr ⟨_, mid, w, seating_resolveFlags, rfl, hmid, hn, (settlingWrite_ok hwrite).1, hnamed,
      .inr ?_, ?_⟩
    · simp [Request.writes, hwrite]
    · intro it' hit' hc
      by_cases hdrop : r.action = "drop"
      · unfold settlingWrite at hwrite
        rw [hdrop, if_neg (by decide), if_neg (by decide), if_pos rfl] at hwrite
        obtain rfl := Option.some.inj (Except.ok.inj hwrite)
        rfl
      · exact (hopen hdrop it' hit' hc).elim

/-! ## Requests -/

/-- Nothing that a request writes leaves a placed item with two owners. -/
def Request.OneOwner (request : Request) (items : Items) : Prop :=
  ∀ w ∈ request.writes, ∀ it : Item, items[w.n]? = some it → ∀ task, it.seat.Links task →
    (ownerPids (newHolders w it)).length ≤ 1

/-- A request reopens no placed item that keeps its owner. -/
def Request.ReopensFreely (request : Request) (items : Items) : Prop :=
  ∀ w ∈ request.writes, ∀ it : Item, items[w.n]? = some it → ∀ task, it.seat.Links task →
    ¬ w.Restores it

omit [Runtime] in
/-- What is asked of a write depends on its item's seat. -/
theorem seat_congr {it : Item} (hseat : before.seat = it.seat) :
    newHolders w before = newHolders w it ∧ (w.Restores before → w.Restores it) := by
  have hholders : before.holders = it.holders := congrArg Seat.holders hseat
  have hclosed : before.status.closed = it.status.closed := congrArg Seat.closed hseat
  have hnew : newHolders w before = newHolders w it := newHolders_congr hholders
  refine ⟨hnew, ?_⟩
  rintro ⟨hc, hopen, hkept, hne⟩
  rw [hnew, hholders] at hkept
  exact ⟨hclosed ▸ hc, hopen, hkept, hholders ▸ hne⟩

/-- An update keeps the permits with the owners. -/
theorem update_holding {u : Update}
    (h : ∀ l, Holding e C ref orchestrator P l tx.seating)
    (hone : (Request.update u).OneOwner tx.items)
    (hrestores : e → (Request.update u).ReopensFreely tx.items) (hrun : tx.update u = .ok tx') :
    Holding e C ref orchestrator P [] tx'.seating := by
  unfold BoardTx.update at hrun
  obtain ⟨_, -, hrun⟩ := except_bind_ok.mp hrun
  obtain ⟨_, -, hrun⟩ := except_bind_ok.mp hrun
  obtain ⟨write, hwrite, hrun⟩ := except_bind_ok.mp hrun
  have hwrites : ∀ m ∈ fromKeys u.ns, write m ∈ (Request.update u).writes := by
    intro m hm
    unfold Request.writes
    simp only [hwrite]
    exact List.mem_map_of_mem hm
  -- Items that are left still have the seats they had at the start.
  refine (foldlM_rest (fun l tx2 => Holding e C ref orchestrator P l tx2.seating ∧ l.Nodup ∧
    ∀ m ∈ l, m ∈ fromKeys u.ns ∧ tx2.seating.seat m = tx.seating.seat m) ?_
    ⟨h _, nodup_fromKeys, fun m hm => ⟨hm, rfl⟩⟩ hrun).1
  rintro n l tx1 tx2 ⟨hholding, hnodup, hleft⟩ hstep
  obtain ⟨hn, hnew, -⟩ := Update.write_ok hwrite n
  obtain ⟨before, after, hr⟩ := apply_reseats (updateOne_ok hstep)
  have hmem : tx1.items[n]? = some before := hn ▸ hr.mem
  have hkeys := (hleft n List.mem_cons_self).1
  obtain ⟨it, hit, hseat⟩ : ∃ it, tx.items[n]? = some it ∧ before.seat = it.seat := by
    have hsame := (hleft n List.mem_cons_self).2
    have hsome : tx1.seating.seat n = some before.seat := congrArg (Option.map Item.seat) hmem
    obtain ⟨it, hit, heq⟩ := Option.map_eq_some_iff.mp (hsame.symm.trans hsome)
    exact ⟨it, hit, heq.symm⟩
  obtain ⟨hsame, hrest⟩ := seat_congr (w := write n) hseat
  rw [← hn] at hit
  refine ⟨Holding.apply (w := write n) (hn.symm ▸ hholding)
    (hn.symm ▸ (List.nodup_cons.mp hnodup).1) hr ?_ (Update.write_named hwrite n) ?_ ?_,
    (List.nodup_cons.mp hnodup).2, ?_⟩
  · rw [hnew]
    exact fun hc => absurd hc (by simp)
  · intro task hl
    rw [hsame]
    exact hone _ (hwrites n hkeys) it hit task (hseat ▸ hl)
  · intro he task hl hback
    exact hrestores he _ (hwrites n hkeys) it hit task (hseat ▸ hl) (hrest hback)
  · intro m hm
    have hold := hleft m (List.mem_cons_of_mem n hm)
    refine ⟨hold.1, ?_⟩
    rw [hr.seating]
    refine (Function.update_of_ne ?_ ..).trans hold.2
    rw [hn]
    exact fun he => (List.nodup_cons.mp hnodup).1 (he ▸ hm)

/-- A resolution keeps the permits with the owners. -/
theorem resolve_holding {r : Resolve}
    (h : ∀ l, Holding e C ref orchestrator P l tx.seating)
    (hone : (Request.resolve r).OneOwner tx.items) (hrun : tx.resolve r = .ok tx') : Holding e C ref orchestrator P [] tx'.seating := by
  rcases resolve_cases hrun with hsame | ⟨mid, mid', w, hres⟩
  · rw [hsame]
    exact h []
  · obtain ⟨before, after, hr⟩ := apply_reseats hres.apply
    have hstart : Holding e C ref orchestrator P [w.n] mid.seating := by
      rw [hres.start]
      exact h [w.n]
    obtain ⟨it, hit, hseat⟩ : ∃ it, tx.items[w.n]? = some it ∧ before.seat = it.seat := by
      have hsome : mid.seating.seat w.n = some before.seat := congrArg (Option.map Item.seat) hr.mem
      rw [hres.start] at hsome
      obtain ⟨it, hit, heq⟩ := Option.map_eq_some_iff.mp hsome
      exact ⟨it, hit, heq.symm⟩
    obtain ⟨hsame, hrest⟩ := seat_congr (w := w) hseat
    rw [← hres.stop]
    refine hstart.apply (by simp) hr ?_ hres.named ?_ ?_
    · rw [hres.creating]
      exact fun hc => absurd hc (by simp)
    · intro task hl
      rcases hres.holders with hplain | hw
      · exact newHolders_owners hplain hres.creating ((hstart.item hr.mem).single task hl)
      · rw [hsame]
        exact hone w hw it hit task (hseat ▸ hl)
    · intro he task hl hback
      obtain ⟨t, ht, hopen⟩ := hback.2.1
      have hdropped := hres.closed it (hres.n ▸ hit) (hrest hback).1
      have hname : t.name = "dropped" := by
        have heq := ht.symm.trans hdropped
        simpa using heq
      have htd : t = .dropped := by
        have hof := Status.ofName_name t
        rw [hname] at hof
        exact (Option.some.inj (hof.symm.trans (Status.ofName_name .dropped)))
      rw [htd] at hopen
      cases hopen

/-! ## Creating -/

omit [Runtime] in
theorem addItem_seat {title : String} : (tx.addItem title).seating.seat =
    Function.update tx.seating.seat tx.board.nextNumber
      (some (newItem tx.board.nextNumber title tx.now tx.actor.pid).seat) := by
  funext m
  show (tx.addItem title).items[m]?.map Item.seat = _
  rw [addItem_items]
  by_cases hm : m = tx.board.nextNumber
  · rw [if_pos hm, hm, Function.update_self]
    rfl
  · rw [if_neg hm, Function.update_of_ne hm]
    rfl

omit [Runtime] in
/-- A new item is nobody's and no task's. -/
theorem Holding.addItem {title : String}
    (h : Holding e C ref orchestrator P l tx.seating) :
    Holding e C ref orchestrator P [tx.board.nextNumber] (tx.addItem title).seating := by
  have hfree : tx.seating.seat tx.board.nextNumber = none := by
    cases hs : tx.seating.seat tx.board.nextNumber with
    | none => rfl
    | some s => exact absurd (h.numbered _ s hs) (Nat.lt_irrefl _)
  have hother : ∀ c ∈ tx.ownerChanges, c.1 ≠ tx.board.nextNumber := by
    intro c hc he
    obtain ⟨-, s, hs⟩ := h.written c hc
    rw [he, hfree] at hs
    cases hs
  have hmay : ∀ old, (tx.addItem title).seating.mayGrant orchestrator old =
      tx.seating.mayGrant orchestrator old := fun _ => rfl
  have hmoved : (tx.addItem title).seating.moved orchestrator P =
      tx.seating.moved orchestrator P := by
    refine Seating.moved_congr rfl (fun c hc => ?_) hmay
    rw [addItem_seat]
    exact Function.update_of_ne (hother c hc) ..
  have hlinks : ∀ task, ¬ (newItem tx.board.nextNumber title tx.now tx.actor.pid).seat.Links task := by
    rintro task ⟨ht, -⟩
    cases ht
  refine ⟨?_, ?_, ?_, fun he old => (hmay old).trans (h.may he old)⟩
  · rw [hmoved, addItem_seat, ← Chart.put_on]
    refine h.tidy.move ⟨⟨fun k hk => ?_, fun task hl => ?_⟩, fun task hl => ?_, fun task hl => ?_,
      fun _ task hl => ?_, fun _ _ _ => rfl, fun task _ s hs _ => ?_⟩
    · cases hk
    · exact absurd hl (hlinks task)
    · exact absurd hl (hlinks task)
    · exact absurd hl (hlinks task)
    · exact absurd hl (hlinks task)
    · rw [Chart.on_self, hfree] at hs
      cases hs
  · intro m s hs
    show m < tx.board.nextNumber + 1
    rw [addItem_seat] at hs
    by_cases hm : m = tx.board.nextNumber
    · omega
    · have := h.numbered m s ((Function.update_of_ne hm ..).symm.trans hs)
      change m < tx.board.nextNumber at this
      omega
  · intro c hc
    obtain ⟨-, s, hs⟩ := h.written c hc
    refine ⟨by simpa using hother c hc, s, ?_⟩
    rw [addItem_seat]
    exact (Function.update_of_ne (hother c hc) ..).trans hs

omit [Runtime] in
theorem specHolders_pid {spec : Fields} {holders : List Holder}
    (h : tx.specHolders spec = .ok holders) : ∀ k ∈ holders, k.pid ≠ "" := by
  unfold specHolders at h
  split at h
  · unfold actorHolder at h
    split at h
    · obtain ⟨k, hk, h⟩ := except_bind_ok.mp h
      obtain rfl := except_pure_ok.mp h
      intro k' hk'
      obtain rfl := List.mem_singleton.mp hk'
      exact holder_pid hk
    · obtain rfl := Except.ok.inj h
      intro k hk
      cases hk
  · exact holderList_pid h

theorem createOne_holding {spec : Fields} (h : Holding e C ref orchestrator P [] tx.seating)
    (hrun : createOne tx spec = .ok tx') : Holding e C ref orchestrator P [] tx'.seating := by
  obtain ⟨given, -, hrun⟩ := except_bind_ok.mp hrun
  obtain ⟨holders, hholders, hrun⟩ := except_bind_ok.mp hrun
  obtain ⟨before, after, hr⟩ := apply_reseats hrun
  have hadded : Holding e C ref orchestrator P [tx.board.nextNumber]
      (tx.addItem (given.getD "")).seating := h.addItem
  have hnewItem : before = newItem tx.board.nextNumber (given.getD "") tx.now tx.actor.pid := by
    have hmem := hr.mem
    rw [addItem_items, if_pos rfl] at hmem
    exact (Option.some.inj hmem).symm
  have htask : before.taskId = none := by rw [hnewItem]; rfl
  refine hadded.apply (by simp) hr (fun _ => htask) ?_ ?_ ?_
  · intro k hk
    exact specHolders_pid hholders k (by simpa using hk)
  · rintro task ⟨ht, -⟩
    exact absurd (htask.symm.trans ht) (by simp)
  · rintro - task ⟨ht, -⟩
    exact absurd (htask.symm.trans ht) (by simp)

theorem create_holding {specs : List Fields} (h : Holding e C ref orchestrator P [] tx.seating)
    (hrun : tx.create specs = .ok tx') : Holding e C ref orchestrator P [] tx'.seating := by
  unfold BoardTx.create at hrun
  obtain ⟨_, -, hrun⟩ := except_bind_ok.mp hrun
  obtain ⟨_, -, hrun⟩ := except_bind_ok.mp hrun
  exact foldlM_rest (fun _ tx2 => Holding e C ref orchestrator P [] tx2.seating)
    (fun spec _ tx1 tx2 hone hstep => createOne_holding hone hstep) h hrun

/-- Every request keeps the permits with the owners. -/
theorem run_holding {request : Request}
    (h : ∀ l, Holding e C ref orchestrator P l tx.seating) (hone : request.OneOwner tx.items)
    (hrestores : e → request.ReopensFreely tx.items) (hrun : tx.run request = .ok tx') :
    Holding e C ref orchestrator P [] tx'.seating := by
  cases request with
  | create specs => exact create_holding (h []) hrun
  | update u => exact update_holding h hone hrestores hrun
  | touch t =>
    obtain rfl := Except.ok.inj hrun
    rw [seating_touch]
    exact h []
  | resolve r => exact resolve_holding h hone hrun

end

end Board
