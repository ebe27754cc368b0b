import Mathlib
import ClaudeManager.Program.Runs
import ClaudeManager.Board.History
import ClaudeManager.Board.Runs
import ClaudeManager.Board.Grants

/-!
# Boards and their histories

What the entries of a board's transactions tell of its items:

* `Settled.Accounted` — the first half of a write leaves no entry, and says which holders it wrote
* `Tells` — every item's fields are those its entries tell
* `Recorded.write` — a transaction with the entries it leaves
-/

namespace Board

open Json Python Containers Program BoardTx

/-! ## The first half of a write -/

/-- The holders a write puts on its item, where it changes them. -/
def changedHolders (w : Write) (it : Item) : Option (List Holder) :=
  if holdersChange w it || evidenceChanges w it then some (newHolders w it) else none

variable {w : Write} {d d' : Draft} {v : Value}

/-- Only the holders of the item matter for the new ones. -/
theorem changedHolders_congr {it it' : Item} (h : it'.holders = it.holders) :
    changedHolders w it' = changedHolders w it := by
  have hpids : w.prevPids it' = w.prevPids it := by
    unfold Write.prevPids
    rw [h]
  have hnew : newHolders w it' = newHolders w it := by
    unfold newHolders
    rw [hpids, h]
  unfold changedHolders holdersChange evidenceChanges
  rw [hnew, hpids, h]

/-- What a transaction holds for history. -/
structure Account where
  actor : Actor
  events : List Event
  holdersChanged : NatSet

def BoardTx.account (tx : BoardTx) : Account := ⟨tx.actor, tx.events, tx.holdersChanged⟩

/-- A step that writes no history, and leaves the item's holders. -/
structure Draft.Keeps (d d' : Draft) : Prop where
  account : d'.tx.account = d.tx.account
  holders : d'.it.holders = d.it.holders

namespace Draft.Keeps

variable {d'' : Draft}

theorem refl (d : Draft) : d.Keeps d := ⟨rfl, rfl⟩

theorem trans (h : d.Keeps d') (h' : d'.Keeps d'') : d.Keeps d'' :=
  ⟨h'.account.trans h.account, h'.holders.trans h.holders⟩

end Draft.Keeps

theorem withField_keeps {key : String} {f : Value → Draft → Except Fault Draft}
    (hf : ∀ {v d d'}, f v d = .ok d' → d.Keeps d') (h : withField w key f d = .ok d') :
    d.Keeps d' := by
  unfold withField at h
  split at h
  · exact hf h
  · obtain rfl := Except.ok.inj h
    exact .refl d

theorem setTitle_keeps (h : setTitle w v d = .ok d') : d.Keeps d' := by
  obtain ⟨title, -, h⟩ := except_bind_ok.mp h
  obtain rfl := except_pure_ok.mp h
  refine ⟨?_, rfl⟩
  simp only
  split <;> rfl

theorem setNote_keeps (h : setNote v d = .ok d') : d.Keeps d' := by
  obtain ⟨note, -, h⟩ := except_bind_ok.mp h
  obtain rfl := except_pure_ok.mp h
  exact ⟨rfl, rfl⟩

theorem setTeam_keeps (h : setTeam v d = .ok d') : d.Keeps d' := by
  obtain ⟨team, -, h⟩ := except_bind_ok.mp h
  obtain rfl := except_pure_ok.mp h
  exact ⟨rfl, rfl⟩

theorem setLinks_keeps (h : setLinks v d = .ok d') : d.Keeps d' := by
  obtain ⟨links, -, h⟩ := except_bind_ok.mp h
  obtain rfl := except_pure_ok.mp h
  exact ⟨rfl, rfl⟩

theorem setBlockedOn_keeps (h : setBlockedOn v d = .ok d') : d.Keeps d' := by
  obtain ⟨trigger, -, h⟩ := except_bind_ok.mp h
  obtain rfl := except_pure_ok.mp h
  exact ⟨rfl, rfl⟩

theorem setJob_keeps (h : setJob v d = .ok d') : d.Keeps d' := by
  obtain ⟨job, -, h⟩ := except_bind_ok.mp h
  obtain rfl := except_pure_ok.mp h
  exact ⟨rfl, rfl⟩

theorem setBlockers_keeps (h : setBlockers w d = .ok d') : d.Keeps d' := by
  unfold setBlockers at h
  split at h
  · obtain rfl := Except.ok.inj h
    exact .refl d
  · obtain ⟨wanted, -, h⟩ := except_bind_ok.mp h
    obtain ⟨_, -, h⟩ := except_bind_ok.mp h
    simp only at h
    split at h
    · obtain rfl := except_pure_ok.mp h
      exact .refl d
    · obtain rfl := except_pure_ok.mp h
      exact ⟨rfl, rfl⟩

theorem settleBlocked_keeps {status : Status} (h : settleBlocked w status d = .ok d') :
    d.Keeps d' := by
  unfold settleBlocked at h
  split at h
  · obtain ⟨_, -, h⟩ := except_bind_ok.mp h
    obtain ⟨_, -, h⟩ := except_bind_ok.mp h
    obtain rfl := except_pure_ok.mp h
    refine ⟨?_, rfl⟩
    simp only
    split <;> rfl
  · split at h
    · obtain rfl := Except.ok.inj h
      exact ⟨rfl, rfl⟩
    · obtain rfl := Except.ok.inj h
      exact .refl d

theorem settleEta_keeps {prev : Option Status} {status : Status}
    (h : settleEta w prev status d = .ok d') : d.Keeps d' := by
  obtain ⟨htx, hit, -⟩ := settleEta_spec h
  refine ⟨by rw [htx], ?_⟩
  rcases hit with hit | hit <;> rw [hit]
  rfl

theorem settleJob_keeps {status : Status} (h : settleJob w status d = .ok d') : d.Keeps d' := by
  obtain ⟨htx, hit, -⟩ := settleJob_spec h
  refine ⟨by rw [htx], ?_⟩
  rcases hit with hit | hit <;> rw [hit]
  rfl

section

variable [Runtime]

theorem pushAll_account {tx : BoardTx} {n : Nat} {holders : List Holder} {kind text : String} :
    (tx.pushAll n holders kind text).account = tx.account := by
  unfold BoardTx.pushAll
  induction holders generalizing tx with
  | nil => rfl
  | cons h rest ih =>
    rw [List.foldl_cons, ih]
    unfold push
    split <;> rfl

theorem setDescription_keeps (h : setDescription w v d = .ok d') : d.Keeps d' := by
  obtain ⟨description, -, h⟩ := except_bind_ok.mp h
  split at h
  · obtain rfl := except_pure_ok.mp h
    exact .refl d
  · obtain rfl := except_pure_ok.mp h
    refine ⟨?_, rfl⟩
    simp only [notifyDescription]
    split_ifs <;> first | rfl | exact pushAll_account

theorem resolveGroup_account {tx tx' : BoardTx} {groupId name : Value} {g : Option Group}
    (h : resolveGroup tx groupId name = .ok (tx', g)) : tx'.account = tx.account := by
  unfold resolveGroup at h
  split at h
  · simp only at h
    split at h
    · obtain ⟨rfl, -⟩ := Prod.mk.inj (Except.ok.inj h)
      rfl
    · cases h
  · obtain ⟨given, -, h⟩ := except_bind_ok.mp h
    split at h
    · obtain ⟨rfl, -⟩ := Prod.mk.inj (except_pure_ok.mp h)
      rfl
    · simp only at h
      split at h
      · obtain ⟨rfl, -⟩ := Prod.mk.inj (except_pure_ok.mp h)
        rfl
      · obtain ⟨rfl, -⟩ := Prod.mk.inj (except_pure_ok.mp h)
        rfl
      · cases h
      · obtain ⟨rfl, -⟩ := Prod.mk.inj (except_pure_ok.mp h)
        rfl

theorem setGroup_keeps (h : setGroup w d = .ok d') : d.Keeps d' := by
  unfold setGroup at h
  split at h
  · obtain ⟨⟨tx, g⟩, hg, h⟩ := except_bind_ok.mp h
    have hl := resolveGroup_account hg
    cases g with
    | none =>
      obtain rfl := except_pure_ok.mp h
      exact ⟨hl, rfl⟩
    | some g =>
      obtain ⟨_, -, h⟩ := except_bind_ok.mp h
      obtain rfl := except_pure_ok.mp h
      exact ⟨hl, rfl⟩
  · obtain rfl := Except.ok.inj h
    exact .refl d

theorem setCheckBack_keeps (h : setCheckBack w v d = .ok d') : d.Keeps d' := by
  obtain ⟨time, -, h⟩ := except_bind_ok.mp h
  obtain ⟨-, -, h⟩ := except_bind_ok.mp h
  obtain rfl := except_pure_ok.mp h
  exact ⟨rfl, rfl⟩

theorem setEta_keeps (h : setEta v d = .ok d') : d.Keeps d' := by
  obtain ⟨time, -, h⟩ := except_bind_ok.mp h
  obtain rfl := except_pure_ok.mp h
  exact ⟨rfl, rfl⟩

theorem setFields_keeps (h : setFields w d = .ok d') : d.Keeps d' := by
  unfold setFields at h
  obtain ⟨d1, h1, h⟩ := except_bind_ok.mp h
  obtain ⟨d2, h2, h⟩ := except_bind_ok.mp h
  obtain ⟨d3, h3, h⟩ := except_bind_ok.mp h
  obtain ⟨d4, h4, h⟩ := except_bind_ok.mp h
  obtain ⟨d5, h5, h⟩ := except_bind_ok.mp h
  obtain ⟨d6, h6, h⟩ := except_bind_ok.mp h
  obtain ⟨d7, h7, h⟩ := except_bind_ok.mp h
  obtain ⟨d8, h8, h⟩ := except_bind_ok.mp h
  obtain ⟨d9, h9, h⟩ := except_bind_ok.mp h
  have hfirst : d.Keeps d4 := ((withField_keeps setTitle_keeps h1).trans
    (withField_keeps setDescription_keeps h2)).trans
      ((withField_keeps setNote_keeps h3).trans (setGroup_keeps h4))
  have hsecond : d4.Keeps d7 := ((withField_keeps setTeam_keeps h5).trans
    (withField_keeps setLinks_keeps h6)).trans (withField_keeps setBlockedOn_keeps h7)
  have hthird : d7.Keeps d' := ((withField_keeps setCheckBack_keeps h8).trans
    (withField_keeps setJob_keeps h9)).trans (withField_keeps setEta_keeps h)
  exact (hfirst.trans hsecond).trans hthird

/-- What the first half of a write holds for history: nothing but which holders it wrote. -/
structure Settled.Accounted (w : Write) (tx : BoardTx) (before : Item) (s : Settled) : Prop where
  actor : s.tx.actor = tx.actor
  events : s.tx.events = tx.events
  holders : (changedHolders w before = none ∧ s.it.holders = before.holders
      ∧ s.tx.holdersChanged = tx.holdersChanged) ∨
    (changedHolders w before = some s.it.holders
      ∧ s.tx.holdersChanged = tx.holdersChanged.insert w.n)

theorem settle_accounted {tx : BoardTx} {before : Item} {s : Settled}
    (h : settle w ⟨tx, before⟩ = .ok s) : s.Accounted w tx before := by
  unfold settle at h
  obtain ⟨_, -, h⟩ := except_bind_ok.mp h
  obtain ⟨explicit, -, h⟩ := except_bind_ok.mp h
  obtain ⟨d1, hfields, h⟩ := except_bind_ok.mp h
  have hearly := setFields_keeps hfields
  obtain ⟨d2, hd2⟩ : ∃ d2, setHolders w d1 = d2 := ⟨_, rfl⟩
  rw [hd2] at h
  obtain ⟨d3, hblockers, h⟩ := except_bind_ok.mp h
  obtain ⟨status, warnings, hstatus⟩ : ∃ status warnings, deriveStatus w d3.tx d3.it explicit
    (decide (newHolders w d1.it ≠ [])) (holdersChange w d1.it) = (status, warnings) := ⟨_, _, rfl⟩
  simp only [hstatus] at h
  obtain ⟨_, -, h⟩ := except_bind_ok.mp h
  obtain ⟨_, -, h⟩ := except_bind_ok.mp h
  obtain ⟨_, -, h⟩ := except_bind_ok.mp h
  obtain ⟨d4, hblocked, h⟩ := except_bind_ok.mp h
  obtain ⟨d5, hset, h⟩ := except_bind_ok.mp h
  obtain ⟨d6, hjob, h⟩ := except_bind_ok.mp h
  obtain ⟨_, -, h⟩ := except_bind_ok.mp h
  obtain rfl := except_pure_ok.mp h
  have hlate : d2.Keeps d6 := by
    have hwarned : d3.Keeps ⟨d3.tx.warnAll warnings, d3.it⟩ := ⟨rfl, rfl⟩
    exact ((setBlockers_keeps hblockers).trans hwarned).trans
      (((settleBlocked_keeps hblocked).trans (settleEta_keeps hset)).trans (settleJob_keeps hjob))
  have hcongr : changedHolders w d1.it = changedHolders w before :=
    changedHolders_congr hearly.holders
  unfold setHolders at hd2
  split at hd2
  · next hch =>
    subst hd2
    refine ⟨?_, ?_, .inr ⟨?_, ?_⟩⟩
    · exact (congrArg Account.actor hlate.account).trans (congrArg Account.actor hearly.account)
    · exact (congrArg Account.events hlate.account).trans (congrArg Account.events hearly.account)
    · rw [← hcongr]
      unfold changedHolders
      rw [if_pos hch]
      exact congrArg some hlate.holders.symm
    · refine (congrArg Account.holdersChanged hlate.account).trans ?_
      exact congrArg (fun c => c.holdersChanged.insert w.n) hearly.account
  · next hch =>
    subst hd2
    have hall := hearly.trans hlate
    refine ⟨congrArg Account.actor hall.account, congrArg Account.events hall.account, .inl ⟨?_, ?_, ?_⟩⟩
    · rw [← hcongr]
      unfold changedHolders
      rw [if_neg hch]
    · exact hall.holders
    · exact congrArg Account.holdersChanged hall.account

/-! ## What entries tell -/

/-- Every item but those out is told by its entries, and the entries tell what they replace. -/
structure Tells (log : List Event) (out : Set Nat) (tx : BoardTx) : Prop where
  exact : Justified Exact (log ++ tx.events)
  told : ∀ m ∉ out, ∀ it : Item, tx.items[m]? = some it →
    history m (log ++ tx.events) = some it.snapshot

/-- What happens beside the item `n`: it is as it was, and no holders are written. -/
structure Beside (log : List Event) (n : Nat) (tx tx' : BoardTx) : Prop where
  actor : tx'.actor = tx.actor
  holdersChanged : tx'.holdersChanged = tx.holdersChanged
  holders : ∀ m : Nat, tx'.items[m]?.map Item.holders = tx.items[m]?.map Item.holders
  told : tx'.items[n]?.map Item.told = tx.items[n]?.map Item.told
  history : Board.history n (log ++ tx'.events) = Board.history n (log ++ tx.events)

variable {log : List Event} {out out' : Set Nat} {tx tx' tx'' : BoardTx} {n dep : Nat}

theorem Silent.holders_eq (h : Silent tx tx') (m : Nat) :
    tx'.items[m]?.map Item.holders = tx.items[m]?.map Item.holders := by
  have htold := congrArg (Option.map fun t => t.2.1) (h.told m)
  rw [Option.map_map, Option.map_map] at htold
  exact htold

namespace Beside

theorem of_silent (h : Silent tx tx') : Beside log n tx tx' :=
  ⟨h.actor, h.holders, h.holders_eq, h.told n, h.history⟩

theorem refl (tx : BoardTx) : Beside log n tx tx := of_silent (.refl tx)

theorem trans (h : Beside log n tx tx') (h' : Beside log n tx' tx'') : Beside log n tx tx'' where
  actor := h'.actor.trans h.actor
  holdersChanged := h'.holdersChanged.trans h.holdersChanged
  holders := fun m => (h'.holders m).trans (h.holders m)
  told := h'.told.trans h.told
  history := h'.history.trans h.history

/-- A change to another item that leaves its holders. -/
theorem modifyItem {f : Item → Item} (hne : dep ≠ n) (hf : ∀ it, (f it).holders = it.holders) :
    Beside log n tx (tx.modifyItem dep f) := by
  refine ⟨rfl, rfl, fun m => ?_, ?_, rfl⟩
  · rw [modifyItem_items]
    by_cases hm : m = dep
    · subst hm
      rw [if_pos rfl, Option.map_map]
      exact Option.map_congr fun it _ => hf it
    · rw [if_neg hm]
  · rw [modifyItem_items, if_neg (Ne.symm hne)]

/-- An entry of another item. -/
theorem event {type : String} {prev new : Value} {reason : Option String} (hne : dep ≠ n) :
    Beside log n tx (tx.event dep type prev new reason) := by
  refine ⟨rfl, rfl, fun _ => rfl, rfl, ?_⟩
  unfold BoardTx.event
  rw [← List.append_assoc, history_concat, if_neg]
  simpa using hne

end Beside

namespace Tells

theorem mono (h : Tells log out tx) (hsub : out ⊆ out') : Tells log out' tx :=
  ⟨h.exact, fun m hm it hit => h.told m (fun hmem => hm (hsub hmem)) it hit⟩

theorem silent (h : Tells log out tx) (hs : Silent tx tx') : Tells log out tx' := by
  refine ⟨hs.exact h.exact, fun m hm it' hit' => ?_⟩
  have htold := hs.told m
  rw [hit', Option.map_some] at htold
  obtain ⟨it, hit, heq⟩ := Option.map_eq_some_iff.mp htold.symm
  rw [hs.history, h.told m hm it hit]
  exact congrArg some (congrArg Prod.fst heq)

/-- A change to one item, before it is told. -/
theorem modifyItem {f : Item → Item} (h : Tells log out tx) :
    Tells log (insert dep out) (tx.modifyItem dep f) := by
  refine ⟨h.exact, fun m hm it hit => ?_⟩
  obtain ⟨hne, hm⟩ := not_or.mp hm
  rw [modifyItem_items, if_neg hne] at hit
  exact h.told m hm it hit

/-- The entry of a change: it names the old values, and the new ones make the item. -/
theorem event {old : Fields} {it : Item} {type : String} {prev new : Value}
    {reason : Option String} (h : Tells log (insert dep out) tx) (hit : tx.items[dep]? = some it)
    (hold : history dep (log ++ tx.events) = some old)
    (htype : type = "updated" ∨ type = "unblocked")
    (hprev : ∀ p ∈ members prev, old.lookup p.1 = some p.2)
    (hnew : overlay old (members new) = it.snapshot) :
    Tells log out (tx.event dep type prev new reason) := by
  have hcreated : type ≠ "created" := by
    rcases htype with rfl | rfl <;> decide
  unfold BoardTx.event
  refine ⟨?_, fun m hm it' hit' => ?_⟩
  · rw [← List.append_assoc, justified_concat]
    refine ⟨h.exact, fun n hn p hp => ?_⟩
    obtain rfl := Option.some.inj hn
    rw [hold]
    exact hprev p hp
  · rw [← List.append_assoc, history_concat]
    simp only
    by_cases hmd : m = dep
    · subst hmd
      obtain rfl := Option.some.inj (hit.symm.trans hit')
      rw [if_pos rfl, hold]
      unfold Event.onto
      rw [if_neg hcreated, if_pos htype]
      exact congrArg some hnew
    · rw [if_neg (by simpa using Ne.symm hmd)]
      exact h.told m (not_or.mpr ⟨hmd, hm⟩) it' hit'

end Tells

/-! ## The items a done item frees -/

/-- A dependent goes on without its blocker, and history tells it. -/
theorem unblock_tells (title : String) {it : Item} (h : Tells log {n} tx) (hne : dep ≠ n)
    (hit : tx.items[dep]? = some it) (hn : n ∈ it.blockedBy) :
    Tells log {n} (tx.unblock n title dep) ∧ Beside log n tx (tx.unblock n title dep) := by
  have hold : history dep (log ++ tx.events) = some it.snapshot :=
    h.told dep (by simpa using hne) it hit
  obtain ⟨tx0, htx0⟩ : ∃ tx0, (tx.modifyItem dep fun it =>
    { it with blockedBy := it.blockedBy.erase n }) = tx0 := ⟨_, rfl⟩
  have hsilent : Silent tx0 (tx.dropBlocker n dep) := by
    unfold dropBlocker
    rw [htx0]
    exact (silent_markDeps.trans silent_markDirty).trans silent_clearBlockerDropped
  have hself0 : tx0.items[dep]? = some { it with blockedBy := it.blockedBy.erase n } := by
    rw [← htx0, modifyItem_items, if_pos rfl, hit]
    rfl
  have hevents0 : tx0.events = tx.events := by
    rw [← htx0]
    rfl
  have hbeside0 : Beside log n tx tx0 := by
    rw [← htx0]
    exact .modifyItem hne fun _ => rfl
  have htells0 : Tells log (insert dep {n}) tx0 := by
    rw [← htx0]
    exact h.modifyItem
  obtain ⟨it1, hit1, hshape, -⟩ := dropBlocker_self (n := n) hit
  have htold1 := hsilent.told dep
  rw [hit1, hself0] at htold1
  obtain ⟨hsnap1, hrest1⟩ := Prod.mk.inj (Option.some.inj htold1)
  have hblocked1 : it1.blockedBy = it.blockedBy.erase n := (Prod.mk.inj hrest1).2
  have hold1 : history dep (log ++ (tx.dropBlocker n dep).events) = some it.snapshot := by
    rw [hsilent.history, hevents0]
    exact hold
  have htells1 := htells0.silent hsilent
  have hbeside1 : Beside log n tx (tx.dropBlocker n dep) := hbeside0.trans (.of_silent hsilent)
  unfold unblock
  simp only [hit1]
  split
  · refine ⟨htells1.event hit1 hold1 (.inl rfl) ?_ ?_, hbeside1.trans (.event hne)⟩
    · rw [hblocked1, natSet_insert_erase hn]
      intro p hp
      obtain rfl := List.mem_singleton.mp hp
      rfl
    · rw [hblocked1, overlay_blockers, hsnap1]
  · next hfree =>
    rw [not_or, not_or] at hfree
    obtain ⟨hempty, hstatus, -⟩ := hfree
    rw [hblocked1, Bool.not_eq_false] at hempty
    obtain ⟨hall, hnone⟩ := natSet_alone hn hempty
    have hblocked : it.status = .blocked := by
      have hsame : it1.status = it.status := congrArg Shape.status hshape
      rw [← hsame]
      simpa using hstatus
    unfold free
    simp only
    obtain ⟨status, hst⟩ : ∃ status, (tx.dropBlocker n dep).freedStatus it1 = status := ⟨_, rfl⟩
    rw [hst]
    obtain ⟨tx2, htx2⟩ : ∃ tx2, (((tx.dropBlocker n dep).modifyItem dep fun it =>
      it.unblocked status (tx.dropBlocker n dep).now).recordUnblocked dep) = tx2 := ⟨_, rfl⟩
    rw [htx2]
    have hit2 : tx2.items[dep]? = some (it1.unblocked status (tx.dropBlocker n dep).now) := by
      rw [← htx2]
      show ((tx.dropBlocker n dep).modifyItem dep _).items[dep]? = _
      rw [modifyItem_items, if_pos rfl, hit1]
      rfl
    have hsilent2 : ∀ {tx : BoardTx}, Silent tx (tx.recordUnblocked dep) :=
      .of_items rfl rfl rfl rfl
    have hbeside2 : Beside log n tx tx2 := by
      rw [← htx2]
      refine hbeside1.trans (.trans (.modifyItem hne ?_) (.of_silent hsilent2))
      exact fun _ => rfl
    have htells2 : Tells log (insert dep {n}) tx2 := by
      rw [← htx2]
      refine Tells.silent ?_ hsilent2
      exact Set.insert_idem dep {n} ▸ htells1.modifyItem
    have hold2 : history dep (log ++ tx2.events) = some it.snapshot := by
      rw [← htx2]
      exact hold1
    refine ⟨(htells2.event hit2 hold2 (.inr rfl) ?_ ?_).silent silent_pushAll,
      (hbeside2.trans (.event hne)).trans (.of_silent silent_pushAll)⟩
    · -- The dependent was blocked, and by nothing else.
      intro p hp
      rcases List.mem_cons.mp hp with rfl | hp
      · show some (Value.arr (it.blockedBy.toList.map fun b => .num b)) = _
        rw [hall]
        rfl
      · obtain rfl := List.mem_singleton.mp hp
        show some (Value.str it.status.name) = _
        rw [hblocked]
        rfl
    · rw [snapshot_unblocked hsnap1, ← overlay_unblocked, hnone]
      rfl

/-- The items a done item blocks, one after the other. -/
theorem cascade_tells {title : String} : ∀ (deps : List Nat) (tx : BoardTx), deps.Nodup →
    (∀ dep ∈ deps, dep ≠ n ∧ Edge tx.items dep n) → Tells log {n} tx →
    Tells log {n} (deps.foldl (fun tx dep => tx.unblock n title dep) tx)
      ∧ Beside log n tx (deps.foldl (fun tx dep => tx.unblock n title dep) tx)
  | [], tx, _, _, h => ⟨h, .refl tx⟩
  | dep :: deps, tx, hnodup, hdeps, h => by
    obtain ⟨hnew, hnodup⟩ := List.nodup_cons.mp hnodup
    obtain ⟨hne, it, hit, hn⟩ := hdeps dep List.mem_cons_self
    obtain ⟨hone, hbeside⟩ := unblock_tells title h hne hit hn
    obtain ⟨hall, hrest⟩ := cascade_tells deps (tx.unblock n title dep) hnodup (by
      intro m hm
      obtain ⟨hmn, itm, hitm, hnm⟩ := hdeps m (List.mem_cons_of_mem _ hm)
      have hother : m ≠ dep := fun he => hnew (he ▸ hm)
      exact ⟨hmn, itm, (unblock_other hother).trans hitm, hnm⟩) hone
    exact ⟨hall, hbeside.trans hrest⟩

/-- What a status means for the items it blocks. A done item waits for nothing. -/
theorem tellDependents_tells (title : String) (prev : Option Status) {status : Status}
    (h : Tells log {n} tx) (hdone : status = .done → ¬ Edge tx.items n n) :
    Tells log {n} (tx.tellDependents n title prev status)
      ∧ Beside log n tx (tx.tellDependents n title prev status) := by
  unfold tellDependents
  split
  · next hd =>
    refine cascade_tells _ tx nodup_dependents (fun dep hdep => ?_) h
    have hedge := mem_dependents.mp hdep
    refine ⟨?_, hedge⟩
    rintro rfl
    exact hdone hd.1 hedge
  · split
    · have hs : Silent tx (tx.flagDependentsDropped n) :=
        .foldl (fun _ _ => silent_flagDependent) _ tx
      exact ⟨h.silent hs, .of_silent hs⟩
    · exact ⟨h, .refl tx⟩

/-! ## The entry of a write -/

/-- A new item's entry has all its fields. -/
theorem Tells.created {it : Item} {reason : Option String} (h : Tells log (insert dep out) tx)
    (hit : tx.items[dep]? = some it) {fields : Fields} (hfields : fields = it.snapshot) :
    Tells log out (tx.event dep "created" .null (.obj fields) reason) := by
  unfold BoardTx.event
  refine ⟨?_, fun m hm it' hit' => ?_⟩
  · rw [← List.append_assoc, justified_concat]
    exact ⟨h.exact, fun _ _ p hp => by cases hp⟩
  · rw [← List.append_assoc, history_concat]
    simp only
    by_cases hmd : m = dep
    · subst hmd
      obtain rfl := Option.some.inj (hit.symm.trans hit')
      rw [if_pos rfl, ← hfields]
      rfl
    · rw [if_neg (by simpa using Ne.symm hmd)]
      exact h.told m (not_or.mpr ⟨hmd, hm⟩) it' hit'

theorem recordWrite_tells {before after it : Item} (h : Tells log {w.n} tx)
    (hit : tx.items[w.n]? = some it) (hafter : after.snapshot = it.snapshot)
    (hold : w.creating = false → history w.n (log ++ tx.events) = some before.snapshot) :
    Tells log ∅ (tx.recordWrite w before after) := by
  have hins : Tells log (insert w.n ∅) tx := h.mono (by simp)
  unfold recordWrite
  simp only
  split
  · exact hins.created hit hafter
  next hnew =>
  have hold := hold (by simpa using hnew)
  split
  · next hsame =>
    -- Nothing changed: what was told before still holds.
    have hnow : before.snapshot = after.snapshot := by
      have hall : overlay before.snapshot ((after.snapshot.filter fun p =>
          before.snapshot.lookup p.1 ≠ some p.2) ++ []) = after.snapshot :=
        overlay_snapshot (by simp)
      rw [hsame, List.append_nil, overlay_nil] at hall
      exact hall
    refine Tells.silent ⟨h.exact, fun m _ it' hit' => ?_⟩
      (silent_event (by decide) (by decide) (by decide))
    by_cases hm : m = w.n
    · subst hm
      obtain rfl := Option.some.inj (hit.symm.trans hit')
      rw [hold, hnow, hafter]
    · exact h.told m (by simpa using hm) it' hit'
  · refine hins.event hit hold (.inl rfl) ?_ ?_
    · intro p hp
      exact lookup_of_mem snapshot_nodup (List.mem_filter.mp hp).1
    · refine (overlay_snapshot ?_).trans hafter
      intro p hp
      split at hp
      · rw [List.mem_singleton.mp hp]
      · cases hp

/-- Only history changes. -/
theorem recordWrite_rest (tx : BoardTx) (w : Write) (before after : Item) :
    (tx.recordWrite w before after).items = tx.items
      ∧ (tx.recordWrite w before after).actor = tx.actor
      ∧ (tx.recordWrite w before after).holdersChanged = tx.holdersChanged := by
  unfold recordWrite
  simp only
  split_ifs <;> exact ⟨rfl, rfl, rfl⟩

/-- The write's last steps tell its item. -/
theorem finish_tells (before : Item) {it : Item} (h : Tells log {w.n} tx)
    (hit : tx.items[w.n]? = some it)
    (hold : w.creating = false → history w.n (log ++ tx.events) = some before.snapshot) :
    Tells log ∅ (tx.finish w before) ∧ (tx.finish w before).actor = tx.actor
      ∧ (tx.finish w before).holdersChanged = tx.holdersChanged
      ∧ ∀ m : Nat, (tx.finish w before).items[m]?.map Item.holders
        = tx.items[m]?.map Item.holders := by
  unfold finish
  simp only
  obtain ⟨tx1, htx1⟩ : ∃ tx1, (tx.modifyItem w.n fun it => { it with touchedAt := some tx.now })
    = tx1 := ⟨_, rfl⟩
  rw [htx1]
  have hs1 : Silent tx tx1 := by
    rw [← htx1]
    exact silent_modifyItem fun _ => rfl
  have hit1 : tx1.items[w.n]? = some { it with touchedAt := some tx.now } := by
    rw [← htx1, modifyItem_items, if_pos rfl, hit]
    rfl
  rw [hit1]
  simp only
  obtain ⟨tx2, htx2⟩ : ∃ tx2, (tx1.pushAssigned w.n { it with touchedAt := some tx.now }
    (w.prevPids before)).markDirty w.n = tx2 := ⟨_, rfl⟩
  rw [htx2]
  have hs2 : Silent tx1 tx2 := by
    rw [← htx2]
    exact silent_pushAssigned.trans silent_markDirty
  have hs := hs1.trans hs2
  have htold := hs2.told w.n
  rw [hit1] at htold
  obtain ⟨it2, hit2, heq⟩ := Option.map_eq_some_iff.mp htold
  obtain ⟨hitems, hactor, hholders⟩ :=
    recordWrite_rest tx2 w before { it with touchedAt := some tx.now }
  refine ⟨recordWrite_tells (h.silent hs) hit2 (congrArg Prod.fst heq).symm ?_, ?_, ?_, fun m => ?_⟩
  · intro hnew
    rw [hs.history]
    exact hold hnew
  · rw [hactor]
    exact hs.actor
  · rw [hholders]
    exact hs.holders
  · rw [hitems]
    exact hs.holders_eq m

/-! ## The write -/

/-- What a write leaves of the holders: its own item's may be written, the others stay. -/
structure Filed (w : Write) (before : Item) (tx tx' : BoardTx) : Prop where
  actor : tx'.actor = tx.actor
  others : ∀ m ≠ w.n, tx'.items[m]?.map Item.holders = tx.items[m]?.map Item.holders
  self : ∃ it' : Item, tx'.items[w.n]? = some it' ∧
    ((changedHolders w before = none ∧ it'.holders = before.holders
        ∧ tx'.holdersChanged = tx.holdersChanged) ∨
      (changedHolders w before = some it'.holders
        ∧ tx'.holdersChanged = tx.holdersChanged.insert w.n))

theorem commit_tells {before : Item} {s : Settled} (h : Tells log {w.n} tx)
    (hold : w.creating = false → history w.n (log ++ tx.events) = some before.snapshot)
    (hs : SettleSpec w tx before s) (ha : s.Accounted w tx before)
    (hc : commit w before s = .ok tx') : Tells log ∅ tx' ∧ Filed w before tx tx' := by
  obtain ⟨tx1, htx1⟩ : ∃ tx1, s.tx.setItem w.n s.it = tx1 := ⟨_, rfl⟩
  have hitems1 : ∀ m : Nat, tx1.items[m]? = if m = w.n then some s.it else tx.items[m]? := by
    intro m
    rw [← htx1, setItem_items, hs.marked.items]
  have hevents1 : tx1.events = tx.events := by
    rw [← htx1]
    exact ha.events
  have hactor1 : tx1.actor = tx.actor := by
    rw [← htx1]
    exact ha.actor
  have hchanged1 : tx1.holdersChanged = s.tx.holdersChanged := by
    rw [← htx1]
    rfl
  have htells1 : Tells log {w.n} tx1 := by
    refine ⟨hevents1 ▸ h.exact, fun m hm it hit => ?_⟩
    rw [hitems1, if_neg (by simpa using hm)] at hit
    rw [hevents1]
    exact h.told m hm it hit
  unfold commit at hc
  rw [htx1] at hc
  obtain ⟨tx3, hdeps, hc⟩ := except_bind_ok.mp hc
  obtain rfl := except_pure_ok.mp hc
  obtain ⟨tx5, htx5⟩ : ∃ tx5, (tx3.settleSuggestion w before s.it).closeOrReopen w.n
    (w.prevStatus before) s.it.status = tx5 := ⟨_, rfl⟩
  simp only [htx5]
  have hs5 : Silent tx1 tx5 := by
    rw [← htx5]
    exact ((silent_announce.trans (silent_recheckDeps hdeps)).trans silent_settleSuggestion).trans
      silent_closeOrReopen
  have htold5 := hs5.told w.n
  rw [hitems1, if_pos rfl] at htold5
  obtain ⟨it5, hit5, heq5⟩ := Option.map_eq_some_iff.mp htold5
  obtain ⟨hsnap5, hrest5⟩ := Prod.mk.inj heq5
  obtain ⟨hholders5, hblocked5⟩ := Prod.mk.inj hrest5
  have hdone : s.it.status = .done → ¬ Edge tx5.items w.n w.n := by
    rintro hd ⟨it, hit, hn⟩
    obtain rfl := Option.some.inj (hit5.symm.trans hit)
    have hblocked := hs.blocked w.n (hblocked5 ▸ hn)
    rw [hd] at hblocked
    cases hblocked
  obtain ⟨htells6, hbeside⟩ := tellDependents_tells s.it.title (w.prevStatus before)
    (htells1.silent hs5) hdone
  have htold6 := hbeside.told
  rw [hit5] at htold6
  obtain ⟨it6, hit6, heq6⟩ := Option.map_eq_some_iff.mp htold6
  obtain ⟨htells, hactor, hchanged, hholders⟩ := finish_tells before htells6 hit6 (by
    intro hnew
    rw [hbeside.history, hs5.history, hevents1]
    exact hold hnew)
  have hall : ∀ m : Nat, _ := fun m => ((hholders m).trans (hbeside.holders m)).trans
    (hs5.holders_eq m)
  refine ⟨htells, ⟨?_, fun m hm => ?_, ?_⟩⟩
  · exact ((hactor.trans hbeside.actor).trans hs5.actor).trans hactor1
  · rw [hall m, hitems1, if_neg hm]
  · have hself := hall w.n
    rw [hitems1, if_pos rfl] at hself
    obtain ⟨it', hit', heq⟩ := Option.map_eq_some_iff.mp hself
    have hch : _ = s.tx.holdersChanged :=
      ((hchanged.trans hbeside.holdersChanged).trans hs5.holders).trans hchanged1
    refine ⟨it', hit', ?_⟩
    rw [hch, heq]
    exact ha.holders

omit [Runtime] in
theorem item_ok {it : Item} (h : tx.item n = .ok it) : tx.items[n]? = some it := by
  unfold BoardTx.item at h
  split at h
  · next it' hit => rw [hit, Except.ok.inj h]
  · cases h

theorem apply_tells (h : Tells log {w.n} tx)
    (hold : w.creating = false → ∀ it : Item, tx.items[w.n]? = some it →
      history w.n (log ++ tx.events) = some it.snapshot)
    (hc : tx.apply w = .ok tx') :
    ∃ before : Item, tx.items[w.n]? = some before ∧ Tells log ∅ tx' ∧ Filed w before tx tx' := by
  unfold BoardTx.apply at hc
  obtain ⟨before, hbefore, hc⟩ := except_bind_ok.mp hc
  obtain ⟨s, hsettle, hc⟩ := except_bind_ok.mp hc
  have hit := item_ok hbefore
  obtain ⟨htells, hfiled⟩ := commit_tells h (fun hnew => hold hnew before hit) (settle_ok hsettle)
    (settle_accounted hsettle) hc
  exact ⟨before, hit, htells, hfiled⟩

/-! ## The calls -/

/-- The item holders a transaction wrote, but for the items out, are among some lists. -/
def Wrote (lists : List (List Holder)) (out : Set Nat) (tx : BoardTx) : Prop :=
  ∀ m ∈ tx.holdersChanged, m ∉ out → ∀ it : Item, tx.items[m]? = some it → it.holders ∈ lists

/-- The transaction so far: its items are told, and the holders it wrote are known. -/
structure Going (log : List Event) (lists : List (List Holder)) (tx : BoardTx) : Prop where
  tells : Tells log ∅ tx
  wrote : Wrote lists ∅ tx

variable {lists : List (List Holder)}

theorem Going.silent (h : Going log lists tx) (hs : Silent tx tx') : Going log lists tx' := by
  refine ⟨h.tells.silent hs, fun m hm hout it' hit' => ?_⟩
  have hsame := hs.holders_eq m
  rw [hit', Option.map_some] at hsame
  obtain ⟨it, hit, heq⟩ := Option.map_eq_some_iff.mp hsame.symm
  rw [← heq]
  exact h.wrote m (hs.holders ▸ hm) hout it hit

omit [Runtime] in
/-- The holders of one more write are known. -/
theorem Filed.wrote {before : Item} (h : Filed w before tx tx') (hw : Wrote lists {w.n} tx)
    (hnone : changedHolders w before = none → w.n ∈ tx.holdersChanged → before.holders ∈ lists)
    (hsome : ∀ hs, changedHolders w before = some hs → hs ∈ lists) : Wrote lists ∅ tx' := by
  intro m hm _ it hit
  obtain ⟨it', hit', hcase⟩ := h.self
  by_cases hmn : m = w.n
  · subst hmn
    obtain rfl := Option.some.inj (hit'.symm.trans hit)
    rcases hcase with ⟨hch, hsame, hset⟩ | ⟨hch, -⟩
    · rw [hsame]
      exact hnone hch (hset ▸ hm)
    · exact hsome _ hch
  · have hbefore := h.others m hmn
    rw [hit, Option.map_some] at hbefore
    obtain ⟨old, hold, heq⟩ := Option.map_eq_some_iff.mp hbefore.symm
    rw [← heq]
    refine hw m ?_ (by simpa using hmn) old hold
    rcases hcase with ⟨-, -, hset⟩ | ⟨-, hset⟩
    · exact hset ▸ hm
    · rw [hset, natSet_mem_insert] at hm
      exact hm.resolve_left hmn

/-- A write to an item that is there. -/
theorem apply_going (h : Going log lists tx)
    (hsome : ∀ before : Item, tx.items[w.n]? = some before →
      ∀ hs, changedHolders w before = some hs → hs ∈ lists)
    (hc : tx.apply w = .ok tx') :
    Going log lists tx' ∧ tx'.actor = tx.actor
      ∧ ∀ m ≠ w.n, tx'.items[m]?.map Item.holders = tx.items[m]?.map Item.holders := by
  obtain ⟨before, hit, htells, hfiled⟩ := apply_tells (h.tells.mono (Set.empty_subset _))
    (fun _ it hit => h.tells.told w.n (Set.notMem_empty _) it hit) hc
  refine ⟨⟨htells, hfiled.wrote (fun m hm _ => h.wrote m hm (Set.notMem_empty _)) ?_
    (hsome before hit)⟩, hfiled.actor, hfiled.others⟩
  exact fun _ hm => h.wrote w.n hm (Set.notMem_empty _) before hit

/-- The write that creates an item, its number and title apart. -/
def creation (n : Nat) (spec : Fields) (holders : List Holder) : Write :=
  ⟨n, Fields.without (Fields.without spec "title") "holders", some holders, [], [], none,
    true, false, false, none⟩

/-- The write a resolution makes, its fields apart. -/
def BoardTx.Resolve.write (r : Resolve) : Option Write :=
  if r.action = "answer" ∨ r.action = "apply" then some (Write.plain r.n [] none)
  else
    match settlingWrite r with
    | .ok w => w
    | .error _ => none

/-- The writes a request makes of the items it finds, as far as their holders go. -/
def Request.holderWrites (r : Request) (tx : BoardTx) : List (Write × Item) :=
  match r with
  | .create specs => specs.filterMap fun spec =>
    match tx.specHolders spec with
    | .ok holders => some (creation tx.board.nextNumber spec holders,
        newItem tx.board.nextNumber "" tx.now tx.actor.pid)
    | .error _ => none
  | .update u =>
    match u.write with
    | .ok write => u.ns.filterMap fun n => tx.items[n]?.map fun it => (write n, it)
    | .error _ => []
  | .touch _ => []
  | .resolve r => (r.write.bind fun w => tx.items[r.n]?.map fun it => (w, it)).toList

/-- The lists of holders a request writes. -/
def Request.holderLists (r : Request) (tx : BoardTx) : List (List Holder) :=
  (r.holderWrites tx).filterMap fun p => changedHolders p.1 p.2

omit [Runtime] in
theorem mem_holderLists (w : Write) (it : Item) {r : Request} {hs : List Holder} (hw : (w, it) ∈ r.holderWrites tx)
    (hch : changedHolders w it = some hs) : hs ∈ r.holderLists tx :=
  List.mem_filterMap.mpr ⟨(w, it), hw, hch⟩

omit [Runtime] in
/-- The holders a new item names depend on who creates it alone. -/
theorem specHolders_congr {spec : Fields} (h : tx'.actor = tx.actor) :
    tx'.specHolders spec = tx.specHolders spec := by
  unfold specHolders actorHolder
  rw [h]

theorem createOne_going {spec : Fields} (h : Going log lists tx)
    (hsome : ∀ holders, tx.specHolders spec = .ok holders → ∀ hs,
      changedHolders (creation tx.board.nextNumber spec holders)
        (newItem tx.board.nextNumber "" tx.now tx.actor.pid) = some hs → hs ∈ lists)
    (hc : createOne tx spec = .ok tx') : Going log lists tx' ∧ tx'.actor = tx.actor := by
  obtain ⟨given, -, hc⟩ := except_bind_ok.mp hc
  obtain ⟨title, htitle⟩ : ∃ title, given.getD "" = title := ⟨_, rfl⟩
  simp only [htitle] at hc
  obtain ⟨holders, hholders, hc⟩ := except_bind_ok.mp hc
  obtain ⟨tx1, htx1⟩ : ∃ tx1, tx.addItem title = tx1 := ⟨_, rfl⟩
  rw [htx1] at hholders hc
  have hitems1 : ∀ m : Nat, tx1.items[m]? = if m = tx.board.nextNumber then
      some (newItem tx.board.nextNumber title tx.now tx.actor.pid) else tx.items[m]? := by
    intro m
    rw [← htx1]
    exact addItem_items
  have hrest : tx1.events = tx.events ∧ tx1.actor = tx.actor
      ∧ tx1.holdersChanged = tx.holdersChanged := by
    rw [← htx1]
    exact ⟨rfl, rfl, rfl⟩
  obtain ⟨hevents1, hactor1, hchanged1⟩ := hrest
  have htells1 : Tells log {tx.board.nextNumber} tx1 := by
    refine ⟨hevents1 ▸ h.tells.exact, fun m hm it hit => ?_⟩
    rw [hitems1, if_neg (by simpa using hm)] at hit
    rw [hevents1]
    exact h.tells.told m (Set.notMem_empty _) it hit
  obtain ⟨before, hit, htells, hfiled⟩ := apply_tells
    (w := creation tx.board.nextNumber spec holders) htells1 (fun hnew => by cases hnew) hc
  have hbefore : before = newItem tx.board.nextNumber title tx.now tx.actor.pid := by
    have hself := hitems1 tx.board.nextNumber
    rw [if_pos rfl] at hself
    exact Option.some.inj (hit.symm.trans hself)
  subst hbefore
  have hwrote1 : Wrote lists {tx.board.nextNumber} tx1 := by
    intro m hm hout it hitm
    rw [hitems1, if_neg (by simpa using hout)] at hitm
    exact h.wrote m (hchanged1 ▸ hm) (Set.notMem_empty _) it hitm
  refine ⟨⟨htells, hfiled.wrote hwrote1 (fun hnone => ?_) fun hs hch => ?_⟩,
    hfiled.actor.trans hactor1⟩
  · -- A creation always writes its holders.
    unfold changedHolders at hnone
    rw [if_pos] at hnone
    · cases hnone
    · rfl
  · refine hsome holders ((specHolders_congr hactor1).symm.trans hholders) hs ?_
    exact hch

theorem create_going {specs : List Fields} (h : Going log (Request.holderLists (.create specs) tx) tx)
    (hc : tx.create specs = .ok tx') :
    Going log (Request.holderLists (.create specs) tx) tx' := by
  unfold BoardTx.create at hc
  obtain ⟨_, -, hc⟩ := except_bind_ok.mp hc
  obtain ⟨_, -, hc⟩ := except_bind_ok.mp hc
  refine (foldlM_rest (fun l tx2 => (∀ spec ∈ l, spec ∈ specs) ∧ tx2.actor = tx.actor
    ∧ Going log (Request.holderLists (.create specs) tx) tx2) ?_
      ⟨fun _ hm => hm, rfl, h⟩ hc).2.2
  rintro spec l tx2 tx3 ⟨hsub, hactor, hgoing⟩ hone
  obtain ⟨hgoing', hactor'⟩ := createOne_going hgoing (fun holders hholders hs hch => by
    have hspec := hsub spec List.mem_cons_self
    refine mem_holderLists (creation tx.board.nextNumber spec holders)
      (newItem tx.board.nextNumber "" tx.now tx.actor.pid) ?_ hch
    refine List.mem_filterMap.mpr ⟨spec, hspec, ?_⟩
    rw [← specHolders_congr hactor, hholders]) hone
  exact ⟨fun spec' hm => hsub spec' (List.mem_cons_of_mem _ hm), hactor'.trans hactor, hgoing'⟩

theorem update_going {u : Update} (h : Going log (Request.holderLists (.update u) tx) tx)
    (hc : tx.update u = .ok tx') : Going log (Request.holderLists (.update u) tx) tx' := by
  unfold BoardTx.update at hc
  obtain ⟨_, -, hc⟩ := except_bind_ok.mp hc
  obtain ⟨_, -, hc⟩ := except_bind_ok.mp hc
  obtain ⟨write, hwrite, hc⟩ := except_bind_ok.mp hc
  -- The items left to write have the holders the request found.
  refine (foldlM_rest (fun l tx2 => l.Nodup ∧ (∀ m ∈ l, m ∈ u.ns)
    ∧ (∀ m ∈ l, tx2.items[m]?.map Item.holders = tx.items[m]?.map Item.holders)
    ∧ Going log (Request.holderLists (.update u) tx) tx2) ?_
      ⟨nodup_fromKeys, fun _ hm => mem_fromKeys.mp hm, fun _ _ => rfl, h⟩ hc).2.2.2
  rintro n l tx2 tx3 ⟨hnodup, hsub, hsame, hgoing⟩ hone
  obtain ⟨hnew, hnodup⟩ := List.nodup_cons.mp hnodup
  obtain ⟨hn, -, -⟩ := Update.write_ok hwrite n
  obtain ⟨hgoing', -, hothers⟩ := apply_going hgoing (fun before hit hs hch => by
    rw [hn] at hit
    have hfound := hsame n List.mem_cons_self
    rw [hit, Option.map_some] at hfound
    obtain ⟨it, hit0, heq⟩ := Option.map_eq_some_iff.mp hfound.symm
    refine mem_holderLists (write n) it ?_
      ((changedHolders_congr heq).trans hch)
    unfold Request.holderWrites
    simp only [hwrite]
    exact List.mem_filterMap.mpr ⟨n, hsub n List.mem_cons_self, by rw [hit0]; rfl⟩) (updateOne_ok hone)
  rw [hn] at hothers
  refine ⟨hnodup, fun m hm => hsub m (List.mem_cons_of_mem _ hm), fun m hm => ?_, hgoing'⟩
  exact (hothers m fun he => hnew (he ▸ hm)).trans (hsame m (List.mem_cons_of_mem _ hm))

/-- The write of a resolution, after steps that tell nothing. -/
theorem resolved_going {r : Resolve} (h : Going log (Request.holderLists (.resolve r) tx) tx)
    (hs : Silent tx tx') (hc : tx'.apply w = .ok tx'') (hn : w.n = r.n)
    (hw : ∃ w', r.write = some w' ∧ ∀ it, changedHolders w it = changedHolders w' it) : Going log (Request.holderLists (.resolve r) tx) tx'' := by
  obtain ⟨w', hwrite, hsame⟩ := hw
  refine (apply_going (h.silent hs) (fun before hit hl hch => ?_) hc).1
  have hfound := hs.holders_eq w.n
  rw [hit, Option.map_some] at hfound
  obtain ⟨it, hit0, heq⟩ := Option.map_eq_some_iff.mp hfound.symm
  refine mem_holderLists w' it ?_ ?_
  · unfold Request.holderWrites
    rw [hn] at hit0
    simp [hwrite, hit0]
  · rw [← hsame, changedHolders_congr heq]
    exact hch

theorem resolve_going {r : Resolve} (h : Going log (Request.holderLists (.resolve r) tx) tx)
    (hc : tx.resolve r = .ok tx') : Going log (Request.holderLists (.resolve r) tx) tx' := by
  unfold BoardTx.resolve at hc
  obtain ⟨it, -, hc⟩ := except_bind_ok.mp hc
  obtain ⟨_, -, hc⟩ := except_bind_ok.mp hc
  obtain ⟨_, -, hc⟩ := except_bind_ok.mp hc
  obtain ⟨_, -, hc⟩ := except_bind_ok.mp hc
  split at hc
  · next hanswer =>
    obtain ⟨_, -, hc⟩ := except_bind_ok.mp hc
    obtain ⟨said, -, hc⟩ := except_bind_ok.mp hc
    obtain ⟨tx2, happly, hc⟩ := except_bind_ok.mp hc
    obtain rfl := except_pure_ok.mp hc
    refine (resolved_going h silent_resolveFlags happly rfl
      ⟨Write.plain r.n [] none, ?_, fun _ => rfl⟩).silent
      silent_recordResolution
    unfold Resolve.write
    rw [if_pos (.inl hanswer)]
  split at hc
  · next haction =>
    obtain ⟨flag, -, hc⟩ := except_bind_ok.mp hc
    obtain ⟨_, -, hc⟩ := except_bind_ok.mp hc
    obtain ⟨_, -, hc⟩ := except_bind_ok.mp hc
    simp only at hc
    split at hc
    · obtain ⟨tx2, hstep, hc⟩ := except_bind_ok.mp hc
      obtain rfl := except_pure_ok.mp hstep
      obtain rfl := except_pure_ok.mp hc
      exact h.silent ((silent_resolveFlag.trans silent_dismiss).trans silent_recordResolution)
    · next hdismiss =>
      obtain ⟨tx2, hstep, hc⟩ := except_bind_ok.mp hc
      obtain rfl := except_pure_ok.mp hc
      refine (resolved_going h silent_resolveFlag hstep rfl
        ⟨Write.plain r.n [] none, ?_, fun _ => rfl⟩).silent silent_recordResolution
      unfold Resolve.write
      rw [if_pos (.inr (haction.resolve_right hdismiss))]
  split at hc
  · obtain ⟨_, -, hc⟩ := except_bind_ok.mp hc
    obtain rfl := except_pure_ok.mp hc
    refine h.silent (.trans ?_ (silent_recordResolution.trans silent_markDirty))
    refine Silent.trans (.trans (.foldl (fun _ _ => silent_resolveFlag) _ _) silent_pushAll)
      (silent_modifyItem ?_)
    exact fun _ => rfl
  · next hanswer haction _ =>
    unfold settleFlags at hc
    simp only at hc
    obtain ⟨write, hwrite, hc⟩ := except_bind_ok.mp hc
    split at hc
    · next w' =>
      obtain ⟨tx2, hstep, hc⟩ := except_bind_ok.mp hc
      obtain rfl := except_pure_ok.mp hc
      refine (resolved_going h silent_resolveFlags hstep (settlingWrite_named hwrite).1
        ⟨w', ?_, fun _ => rfl⟩).silent silent_recordResolution
      unfold Resolve.write
      rw [if_neg, hwrite]
      exact fun hor => hor.elim hanswer fun happly => haction (.inl happly)
    · obtain ⟨tx2, hstep, hc⟩ := except_bind_ok.mp hc
      obtain rfl := except_pure_ok.mp hstep
      obtain rfl := except_pure_ok.mp hc
      exact h.silent (silent_resolveFlags.trans silent_recordResolution)

/-- What a transaction leaves told, whatever it runs. -/
theorem run_going {r : Request} (h : Going log (r.holderLists tx) tx) (hc : tx.run r = .ok tx') :
    Going log (r.holderLists tx) tx' := by
  cases r with
  | create specs => exact create_going h hc
  | update u => exact update_going h hc
  | touch t =>
    obtain rfl := Except.ok.inj hc
    exact h.silent silent_touch
  | resolve r => exact resolve_going h hc

/-! ## Runs -/

/-- A board between two transactions, with the entries of all of them. -/
structure Recorded where
  state : BoardState
  events : List Event

/-- One call: who makes it, what it finds around it, and what it asks for. -/
structure Filing where
  actor : Actor
  around : Around
  request : Request

/-- A transaction with the entries it leaves. -/
def Recorded.write (b : Recorded) (c : Filing) : Except Fault Recorded := do
  let tx ← BoardTx.start b.state.board b.state.items c.actor c.around.now b.state.groups
    c.around.uuid
  let tx ← tx.run c.request
  return ⟨← tx.store c.around, b.events ++ tx.events⟩

/-- A transaction is kept where nothing in it is refused. -/
def Recorded.step (b : Recorded) (c : Filing) : Recorded :=
  match b.write c with
  | .ok b' => b'
  | .error _ => b

/-- The holders that a call writes are named in the order a load lists them: by the time they
joined, then by pid. -/
def Recorded.InOrder (b : Recorded) (c : Filing) : Prop :=
  ∀ tx, BoardTx.start b.state.board b.state.items c.actor c.around.now b.state.groups
    c.around.uuid = .ok tx → ∀ holders ∈ c.request.holderLists tx,
      (holders.map (Holder.stored c.around.now)).Pairwise fun h h' =>
        holderLe c.around.collate h h' = true

/-- Every item's history tells its fields as they are, and every entry names what it replaced. -/
structure Recorded.Complete (b : Recorded) : Prop where
  told : ∀ (n : Nat) (it : Item), b.state.items[n]? = some it →
    history n b.events = some it.snapshot
  exact : Justified Exact b.events

theorem complete_empty {board : BoardRow} {groups : List Group} :
    Recorded.Complete ⟨⟨board, ∅, groups⟩, []⟩ := by
  refine ⟨fun n it hit => ?_, justified_nil⟩
  cases (Std.ExtTreeMap.getElem?_empty (a := n)).symm.trans hit

omit [Runtime] in
theorem start_rest {board : BoardRow} {items : Items} {actor : Actor} {now : Instant}
    {groups : List Group} {uuid : Nat → String}
    (h : BoardTx.start board items actor now groups uuid = .ok tx) :
    tx.items = items ∧ tx.events = [] ∧ tx.holdersChanged = ∅ := by
  unfold BoardTx.start at h
  split at h
  · cases h
  · obtain rfl := Except.ok.inj h
    exact ⟨rfl, rfl, rfl⟩

/-- Holders in the order of a load come back as they were written, so history tells them. -/
theorem reloaded_snapshot {around : Around} {it : Item}
    (h : (it.holders.map (Holder.stored around.now)).Pairwise fun h h' =>
      holderLe around.collate h h' = true) : (it.reloaded around).snapshot = it.snapshot := by
  have hpids : (it.holders.map (Holder.stored around.now)).map (fun h => Value.str h.pid)
      = it.holders.map fun h => Value.str h.pid := by
    rw [List.map_map]
    rfl
  have howner : ((it.holders.map (Holder.stored around.now)).find? Holder.owns).map Holder.pid
      = (it.holders.find? Holder.owns).map Holder.pid := by
    rw [List.find?_map, Option.map_map]
    rfl
  unfold Item.reloaded Item.snapshot
  simp only [List.mergeSort_of_pairwise h, hpids, howner]

theorem write_complete {b b' : Recorded} {c : Filing} (h : b.Complete) (hin : b.InOrder c)
    (hc : b.write c = .ok b') : b'.Complete := by
  unfold Recorded.write at hc
  obtain ⟨tx, hstart, hc⟩ := except_bind_ok.mp hc
  obtain ⟨tx', hrun, hc⟩ := except_bind_ok.mp hc
  obtain ⟨s, hstore, hc⟩ := except_bind_ok.mp hc
  obtain rfl := except_pure_ok.mp hc
  obtain ⟨hitems, hevents, hchanged⟩ := start_rest hstart
  have hgoing : Going b.events (c.request.holderLists tx) tx := by
    refine ⟨⟨?_, fun n _ it hit => ?_⟩, fun m hm => ?_⟩
    · rw [hevents, List.append_nil]
      exact h.exact
    · rw [hevents, List.append_nil]
      exact h.told n it (hitems ▸ hit)
    · rw [hchanged] at hm
      exact absurd hm Std.ExtTreeSet.not_mem_empty
  obtain ⟨htells, hwrote⟩ := run_going hgoing hrun
  refine ⟨fun n it hit => ?_, htells.exact⟩
  rw [store_items hstore] at hit
  obtain ⟨it', hit', rfl⟩ := Option.map_eq_some_iff.mp hit
  rw [htells.told n (Set.notMem_empty _) it' hit']
  split
  · next hm =>
    exact congrArg some (reloaded_snapshot
      (hin tx hstart _ (hwrote n hm (Set.notMem_empty _) it' hit'))).symm
  · rfl

end

/-! ## Two boards -/

/-- A call of one session, on a database that compares texts by their characters. -/
def sampleFiling (request : Request) : Filing :=
  ⟨⟨"agent:d:u", some "dev", some "u", some "d", none⟩,
    ⟨0, fun _ => "", [], none, fun s t => decide (s.toList ≤ t.toList)⟩, request⟩

/-- The board without items. -/
def blank : Recorded := ⟨emptyBoard, []⟩

/-- No list that the call writes has two holders. -/
def Recorded.lone [Runtime] (b : Recorded) (c : Filing) : Bool :=
  match BoardTx.start b.state.board b.state.items c.actor c.around.now b.state.groups
    c.around.uuid with
  | .ok tx => (c.request.holderLists tx).all fun holders => holders.length ≤ 1
  | .error _ => true

theorem inOrder_of_lone [Runtime] {b : Recorded} {c : Filing} (h : b.lone c = true) :
    b.InOrder c := by
  intro tx hstart holders hmem
  unfold Recorded.lone at h
  rw [hstart] at h
  have hlen := of_decide_eq_true (List.all_eq_true.mp h holders hmem)
  match holders, hlen with
  | [], _ => exact .nil
  | [h], _ => exact List.pairwise_singleton _ _

theorem mergeSort_pair {α : Type} {le : α → α → Bool} {a b : α} :
    [a, b].mergeSort le = if le a b then [a, b] else [b, a] := by
  simp [List.mergeSort, List.MergeSort.Internal.splitInTwo, List.merge]

/-- One item held by two sessions, named against the order of their pids. -/
def createHeld : Filing :=
  sampleFiling (.create [[("title", .str "schema"), ("holders", .arr [
    .obj [("pid", .str "agent:d:v"), ("role", .str "owner")],
    .obj [("pid", .str "agent:d:u"), ("role", .str "contributor")]])]])

end Board
