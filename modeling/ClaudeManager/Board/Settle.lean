import Mathlib
import ClaudeManager.Board.Cycles

/-!
# What a write makes of its item

The first half of `apply` as its steps change the draft:

* `Draft.Step` — a plain field is set: the parts that rules tie together stay
* `settle_ok` — what a settled item says, whatever the write asked for
-/

namespace Board

open Json Python Containers Program

/-- What a transaction knows of the board and holds for the database, texts apart. -/
structure Ledger where
  board : BoardRow
  items : Items
  actor : Actor
  now : Instant
  created : List Nat
  dirty : NatSet
  holdersChanged : NatSet
  depsChanged : NatSet
  flagsRaised : List FlagMark
  flagsDetail : List FlagMark
  flagsResolved : List FlagSettled

def BoardTx.ledger (tx : BoardTx) : Ledger :=
  ⟨tx.board, tx.items, tx.actor, tx.now, tx.created, tx.dirty, tx.holdersChanged, tx.depsChanged,
    tx.flagsRaised, tx.flagsDetail, tx.flagsResolved⟩

/-- What no write changes of an item that is there. -/
structure Identity where
  id : Option Nat
  taskId : Option String
  linkArchivedAt : Option Instant
  createdBy : Option String
  createdAt : Option Instant
  gateHead : Value

def Item.identity (it : Item) : Identity :=
  ⟨it.id, it.taskId, it.linkArchivedAt, it.createdBy, it.createdAt, it.gateHead⟩

/-- What the steps of a write before its commit leave of the item. -/
structure Base where
  n : Nat
  identity : Identity
  closedAt : Option Instant
  openFlags : Map Flag

def Item.base (it : Item) : Base := ⟨it.n, it.identity, it.closedAt, it.openFlags⟩

/-- A step of `setFields`: what the rules tie together stays, and no text becomes empty. -/
structure Draft.Step (d d' : Draft) : Prop where
  ledger : d'.tx.ledger = d.tx.ledger
  base : d'.it.base = d.it.base
  status : d'.it.status = d.it.status
  holders : d'.it.holders = d.it.holders
  blockedBy : d'.it.blockedBy = d.it.blockedBy
  text : d.it.blockedOn ≠ some "" → d'.it.blockedOn ≠ some ""

namespace Draft.Step

variable {d d' d'' : Draft}

theorem refl (d : Draft) : d.Step d := ⟨rfl, rfl, rfl, rfl, rfl, fun h => h⟩

theorem trans (h : d.Step d') (h' : d'.Step d'') : d.Step d'' where
  ledger := h'.ledger.trans h.ledger
  base := h'.base.trans h.base
  status := h'.status.trans h.status
  holders := h'.holders.trans h.holders
  blockedBy := h'.blockedBy.trans h.blockedBy
  text := fun ht => h'.text (h.text ht)

theorem items (h : d.Step d') : d'.tx.items = d.tx.items := congrArg Ledger.items h.ledger

theorem board (h : d.Step d') : d'.tx.board = d.tx.board := congrArg Ledger.board h.ledger

theorem deps (h : d.Step d') : d'.tx.depsChanged = d.tx.depsChanged :=
  congrArg Ledger.depsChanged h.ledger

end Draft.Step

/-! ## Plain fields -/

variable {w : Write} {d d' : Draft} {v : Value}

theorem setTitle_step (h : setTitle w v d = .ok d') : d.Step d' := by
  obtain ⟨title, -, h⟩ := except_bind_ok.mp h
  obtain rfl := except_pure_ok.mp h
  refine ⟨?_, rfl, rfl, rfl, rfl, fun h => h⟩
  simp only
  split <;> rfl

theorem setNote_step (h : setNote v d = .ok d') : d.Step d' := by
  obtain ⟨note, -, h⟩ := except_bind_ok.mp h
  obtain rfl := except_pure_ok.mp h
  exact ⟨rfl, rfl, rfl, rfl, rfl, fun h => h⟩

theorem setTeam_step (h : setTeam v d = .ok d') : d.Step d' := by
  obtain ⟨team, -, h⟩ := except_bind_ok.mp h
  obtain rfl := except_pure_ok.mp h
  exact ⟨rfl, rfl, rfl, rfl, rfl, fun h => h⟩

theorem setLinks_step (h : setLinks v d = .ok d') : d.Step d' := by
  obtain ⟨links, -, h⟩ := except_bind_ok.mp h
  obtain rfl := except_pure_ok.mp h
  exact ⟨rfl, rfl, rfl, rfl, rfl, fun h => h⟩

theorem setBlockedOn_step (h : setBlockedOn v d = .ok d') : d.Step d' := by
  obtain ⟨trigger, htext, h⟩ := except_bind_ok.mp h
  obtain rfl := except_pure_ok.mp h
  refine ⟨rfl, rfl, rfl, rfl, rfl, ?_⟩
  rintro - rfl
  exact text_isSet htext rfl

theorem setJob_step (h : setJob v d = .ok d') : d.Step d' := by
  obtain ⟨job, -, h⟩ := except_bind_ok.mp h
  obtain rfl := except_pure_ok.mp h
  exact ⟨rfl, rfl, rfl, rfl, rfl, fun h => h⟩

theorem withField_step {key : String} {f : Value → Draft → Except Fault Draft}
    (hf : ∀ {v d d'}, f v d = .ok d' → d.Step d') (h : withField w key f d = .ok d') :
    d.Step d' := by
  unfold withField at h
  split at h
  · exact hf h
  · obtain rfl := Except.ok.inj h
    exact .refl d

section

variable [Runtime]

theorem push_ledger {tx : BoardTx} {n : Nat} {h : Holder} {kind text : String} :
    (tx.push n h kind text).ledger = tx.ledger := by
  unfold BoardTx.push
  split <;> rfl

theorem pushAll_ledger {tx : BoardTx} {n : Nat} {holders : List Holder} {kind text : String} :
    (tx.pushAll n holders kind text).ledger = tx.ledger := by
  unfold BoardTx.pushAll
  induction holders generalizing tx with
  | nil => rfl
  | cons h rest ih => rw [List.foldl_cons, ih, push_ledger]

theorem pushAll_items {tx : BoardTx} {n : Nat} {holders : List Holder} {kind text : String} :
    (tx.pushAll n holders kind text).items = tx.items := congrArg Ledger.items pushAll_ledger

theorem setDescription_step (h : setDescription w v d = .ok d') : d.Step d' := by
  obtain ⟨description, -, h⟩ := except_bind_ok.mp h
  split at h
  · obtain rfl := except_pure_ok.mp h
    exact .refl d
  · obtain rfl := except_pure_ok.mp h
    refine ⟨?_, rfl, rfl, rfl, rfl, fun h => h⟩
    simp only [notifyDescription]
    split_ifs <;> first | rfl | exact pushAll_ledger

theorem resolveGroup_ledger {tx tx' : BoardTx} {groupId name : Value} {g : Option Group}
    (h : resolveGroup tx groupId name = .ok (tx', g)) :
    tx'.ledger = tx.ledger := by
  unfold resolveGroup at h
  split at h
  · simp only at h
    split at h
    · obtain ⟨rfl, -⟩ := Prod.mk.inj (Except.ok.inj h)
      rfl
    · cases h
  · obtain ⟨name, -, h⟩ := except_bind_ok.mp h
    cases name with
    | none =>
      obtain ⟨rfl, -⟩ := Prod.mk.inj (except_pure_ok.mp h)
      rfl
    | some name =>
      simp only at h
      split at h
      · obtain ⟨rfl, -⟩ := Prod.mk.inj (except_pure_ok.mp h)
        rfl
      · obtain ⟨rfl, -⟩ := Prod.mk.inj (except_pure_ok.mp h)
        rfl
      · cases h
      · obtain ⟨rfl, -⟩ := Prod.mk.inj (except_pure_ok.mp h)
        rfl

theorem setGroup_step (h : setGroup w d = .ok d') : d.Step d' := by
  unfold setGroup at h
  split at h
  · obtain ⟨⟨tx, g⟩, hg, h⟩ := except_bind_ok.mp h
    have hl := resolveGroup_ledger hg
    cases g with
    | none =>
      obtain rfl := except_pure_ok.mp h
      exact ⟨hl, rfl, rfl, rfl, rfl, fun h => h⟩
    | some g =>
      obtain ⟨-, -, h⟩ := except_bind_ok.mp h
      obtain rfl := except_pure_ok.mp h
      exact ⟨hl, rfl, rfl, rfl, rfl, fun h => h⟩
  · obtain rfl := Except.ok.inj h
    exact .refl d

theorem setCheckBack_step (h : setCheckBack w v d = .ok d') : d.Step d' := by
  obtain ⟨time, -, h⟩ := except_bind_ok.mp h
  obtain ⟨-, -, h⟩ := except_bind_ok.mp h
  obtain rfl := except_pure_ok.mp h
  exact ⟨rfl, rfl, rfl, rfl, rfl, fun h => h⟩

theorem setEta_step (h : setEta v d = .ok d') : d.Step d' := by
  obtain ⟨time, -, h⟩ := except_bind_ok.mp h
  obtain rfl := except_pure_ok.mp h
  exact ⟨rfl, rfl, rfl, rfl, rfl, fun h => h⟩

/-- An ETA that is given is set. -/
theorem setEta_given (h : withField w "eta" setEta d = .ok d') (hg : w.given "eta" = true) :
    d'.it.etaAt ≠ none := by
  unfold Write.given Write.get at hg
  unfold withField at h
  split at h
  · next v hv =>
    rw [hv] at hg
    obtain ⟨time, htime, h⟩ := except_bind_ok.mp h
    obtain rfl := except_pure_ok.mp h
    unfold whenOf at htime
    rw [if_neg (by simpa using hg)] at htime
    obtain ⟨t, -, htime⟩ := except_bind_ok.mp htime
    obtain rfl := except_pure_ok.mp htime
    simp
  · next hv =>
    rw [hv] at hg
    simp at hg

/-- The plain fields leave what the rules tie together, and set an ETA that is given. -/
theorem setFields_ok (h : setFields w d = .ok d') :
    d.Step d' ∧ (w.given "eta" = true → d'.it.etaAt ≠ none) := by
  unfold setFields at h
  obtain ⟨d1, h1, h⟩ := except_bind_ok.mp h
  obtain ⟨d2, h2, h⟩ := except_bind_ok.mp h
  obtain ⟨d3, h3, h⟩ := except_bind_ok.mp h
  obtain ⟨d4, h4, h⟩ := except_bind_ok.mp h
  obtain ⟨d5, h5, h⟩ := except_bind_ok.mp h
  obtain ⟨d6, h6, h⟩ := except_bind_ok.mp h
  obtain ⟨d7, h7, h⟩ := except_bind_ok.mp h
  obtain ⟨d8, h8, h⟩ := except_bind_ok.mp h
  obtain ⟨d9, h9, h⟩ := except_bind_ok.mp h
  refine ⟨?_, setEta_given h⟩
  have hnote := (withField_step setTitle_step h1).trans (withField_step setDescription_step h2)
    |>.trans (withField_step setNote_step h3)
  have hlinks := (setGroup_step h4).trans (withField_step setTeam_step h5)
    |>.trans (withField_step setLinks_step h6)
  have htimes := (withField_step setBlockedOn_step h7).trans (withField_step setCheckBack_step h8)
    |>.trans (withField_step setJob_step h9)
  exact ((hnote.trans hlinks).trans htimes).trans (withField_step setEta_step h)

end

/-! ## Marks -/

/-- Only the sets of items with new holders or blockers grow. -/
structure BoardTx.Marked (tx tx' : BoardTx) : Prop where
  rest : { tx'.ledger with holdersChanged := tx.holdersChanged, depsChanged := tx.depsChanged }
    = tx.ledger
  holders : ∀ m ∈ tx.holdersChanged, m ∈ tx'.holdersChanged
  deps : ∀ m ∈ tx.depsChanged, m ∈ tx'.depsChanged

namespace BoardTx.Marked

variable {tx tx' tx'' : BoardTx} {n : Nat}

theorem of_ledger (h : tx'.ledger = tx.ledger) : tx.Marked tx' := by
  have hh : tx'.holdersChanged = tx.holdersChanged := congrArg Ledger.holdersChanged h
  have hd : tx'.depsChanged = tx.depsChanged := congrArg Ledger.depsChanged h
  exact ⟨by rw [h]; rfl, fun m hm => hh ▸ hm, fun m hm => hd ▸ hm⟩

theorem trans (h : tx.Marked tx') (h' : tx'.Marked tx'') : tx.Marked tx'' := by
  refine ⟨?_, fun m hm => h'.holders m (h.holders m hm), fun m hm => h'.deps m (h.deps m hm)⟩
  have hrest := congrArg (fun l : Ledger =>
    { l with holdersChanged := tx.holdersChanged, depsChanged := tx.depsChanged }) h'.rest
  exact hrest.trans h.rest

theorem markHolders : tx.Marked (tx.markHolders n) :=
  ⟨rfl, fun _ hm => natSet_mem_insert.mpr (.inr hm), fun _ hm => hm⟩

theorem markDeps : tx.Marked (tx.markDeps n) :=
  ⟨rfl, fun _ hm => hm, fun _ hm => natSet_mem_insert.mpr (.inr hm)⟩

theorem warnAll {texts : List String} : tx.Marked (tx.warnAll texts) := .of_ledger rfl

theorem items (h : tx.Marked tx') : tx'.items = tx.items := congrArg Ledger.items h.rest

theorem board (h : tx.Marked tx') : tx'.board = tx.board := congrArg Ledger.board h.rest

end BoardTx.Marked

/-! ## Holders and blockers -/

/-- New holders are marked. -/
theorem setHolders_spec {d' : Draft} (h : setHolders w d = d') :
    d.tx.Marked d'.tx ∧ d'.it = { d.it with holders := d'.it.holders }
      ∧ (d'.it.holders = d.it.holders ∨ w.n ∈ d'.tx.holdersChanged) := by
  unfold setHolders at h
  split at h <;> subst h
  · exact ⟨.markHolders, rfl, .inr (natSet_mem_insert.mpr (.inl rfl))⟩
  · exact ⟨.of_ledger rfl, rfl, .inl rfl⟩

/-- A blocker that passes is another item, on the board and open. -/
theorem checkBlocker_ok {tx : BoardTx} {b : Nat} (h : checkBlocker w tx b = .ok ⟨⟩) :
    b ≠ w.n ∧ ∃ bt : Item, tx.items[b]? = some bt ∧ bt.status.closed = false := by
  unfold checkBlocker at h
  obtain ⟨_, hne, h⟩ := except_bind_ok.mp h
  obtain ⟨bt, hbt, h⟩ := except_bind_ok.mp h
  refine ⟨except_refuse_ok.mp hne, bt, ?_, by simpa using except_refuse_ok.mp h⟩
  exact (Option.filter_eq_some_iff.mp (except_okOr_ok.mp hbt)).1

/-- New blockers are marked, and each of them passed. -/
theorem setBlockers_spec {d' : Draft} (h : setBlockers w d = .ok d') :
    d.tx.Marked d'.tx ∧ d'.it = { d.it with blockedBy := d'.it.blockedBy }
      ∧ (d'.it.blockedBy = d.it.blockedBy ∨ w.n ∈ d'.tx.depsChanged
        ∧ ∀ b ∈ d'.it.blockedBy, checkBlocker w d.tx b = .ok ⟨⟩) := by
  unfold setBlockers at h
  split at h
  · obtain rfl := Except.ok.inj h
    exact ⟨.of_ledger rfl, rfl, .inl rfl⟩
  · obtain ⟨wanted, -, h⟩ := except_bind_ok.mp h
    obtain ⟨_, hall, h⟩ := except_bind_ok.mp h
    simp only at h
    split at h
    · obtain rfl := except_pure_ok.mp h
      exact ⟨.of_ledger rfl, rfl, .inl rfl⟩
    · obtain rfl := except_pure_ok.mp h
      refine ⟨.markDeps, rfl, .inr ⟨natSet_mem_insert.mpr (.inl rfl), ?_⟩⟩
      intro b hb
      exact except_forM_ok.mp hall b (natSet_mem_ofList.mp hb)

/-! ## Status -/

/-- A status by its name is spelled that way. -/
theorem Status.name_of_ofName {s : String} {t : Status} (h : Status.ofName s = some t) :
    t.name = s := by
  simpa using List.find?_some h

theorem explicitStatus_some {t : Status} (h : explicitStatus w = .ok (some t)) :
    w.fields.lookup "status" = some (.str t.name) := by
  unfold explicitStatus at h
  split at h
  · simp at h
  · next s hs =>
    split at h
    · next t' ht =>
      obtain rfl : t' = t := by simpa using h
      rw [hs, Status.name_of_ofName ht]
    · cases h
  · cases h

/-- A status that is not asked for is done only where it was. -/
theorem statusOfFields_done {tx : BoardTx} {it : Item} {held : Bool} {status : Status}
    (h : statusOfFields w tx it held status = .done) : status = .done := by
  unfold statusOfFields at h
  split_ifs at h
  all_goals exact h

theorem statusOfHolders_done {tx : BoardTx} {it : Item} {held changed : Bool}
    (h : (statusOfHolders w tx it held changed).1 = .done) :
    w.prevStatus it = some .done := by
  unfold statusOfHolders at h
  unfold Write.prevStatus
  split_ifs at h ⊢ <;> simp_all

theorem deriveStatus_done {tx : BoardTx} {it : Item} {explicit : Option Status}
    {held changed : Bool} (h : (deriveStatus w tx it explicit held changed).1 = .done) :
    explicit = some .done ∨ w.prevStatus it = some .done := by
  unfold deriveStatus at h
  cases explicit with
  | some status =>
    simp only at h
    split at h
    · cases h
    · exact .inl (congrArg some h)
  | none =>
    simp only at h
    split at h
    · cases h
    · exact .inr (statusOfHolders_done (statusOfFields_done h))

theorem explicitStatus_done {explicit : Option Status} (h : explicitStatus w = .ok explicit)
    (hw : w.fields.lookup "status" = some (.str "done")) : explicit = some .done := by
  unfold explicitStatus at h
  rw [hw] at h
  exact (Except.ok.inj h).symm

/-- A status that is asked for is taken, unless it is the open one. -/
theorem deriveStatus_explicit {tx : BoardTx} {it : Item} {held changed : Bool} :
    (deriveStatus w tx it (some .done) held changed).1 = .done := by
  unfold deriveStatus
  simp [ownerAdds]

/-! ## What the status carries -/

/-- An item that is not blocked loses its blockers, which is marked. -/
theorem settleBlocked_spec {status : Status} {d' : Draft}
    (h : settleBlocked w status d = .ok d') :
    d.tx.Marked d'.tx ∧ (status = .blocked ∧ d'.it = d.it
      ∨ status ≠ .blocked ∧ d'.it = d.it.clearBlock status
        ∧ (d.it.blockedBy = ∅ ∨ w.n ∈ d'.tx.depsChanged)) := by
  unfold settleBlocked at h
  split at h
  · next hne =>
    obtain ⟨-, -, h⟩ := except_bind_ok.mp h
    obtain ⟨-, -, h⟩ := except_bind_ok.mp h
    obtain rfl := except_pure_ok.mp h
    by_cases hempty : d.it.blockedBy.isEmpty = true
    · refine ⟨by rw [if_pos hempty]; exact .of_ledger rfl, .inr ⟨hne, rfl, .inl ?_⟩⟩
      exact Std.ExtTreeSet.isEmpty_iff.mp hempty
    · refine ⟨by rw [if_neg hempty]; exact .markDeps, .inr ⟨hne, rfl, .inr ?_⟩⟩
      simp only
      rw [if_neg hempty]
      exact natSet_mem_insert.mpr (.inl rfl)
  · next hblocked =>
    simp only [ne_eq, not_not] at hblocked
    split at h
    · obtain rfl := Except.ok.inj h
      exact ⟨.of_ledger rfl, .inl ⟨hblocked, rfl⟩⟩
    · obtain rfl := Except.ok.inj h
      exact ⟨.of_ledger rfl, .inl ⟨hblocked, rfl⟩⟩

/-- Waiting has an ETA, and only waiting and active items keep one. -/
theorem settleEta_spec {prev : Option Status} {status : Status} {d' : Draft}
    (h : settleEta w prev status d = .ok d') :
    d'.tx = d.tx ∧ (d'.it = d.it ∨ d'.it = d.it.clearEta)
      ∧ (status = .waiting → d'.it = d.it ∧ (w.given "eta" = true ∨ d.it.etaAt ≠ none))
      ∧ (d'.it.etaAt ≠ none → status = .waiting ∨ status = .active) := by
  unfold settleEta at h
  simp only at h
  split_ifs at h with hwait hkeep hset
  · obtain ⟨_, hrefuse, h⟩ := except_bind_ok.mp h
    obtain rfl := except_pure_ok.mp h
    refine ⟨rfl, .inl rfl, fun _ => ⟨rfl, ?_⟩, fun _ => .inl hwait⟩
    have hok := except_refuse_ok.mp hrefuse
    by_cases hg : w.given "eta" = true
    · exact .inl hg
    · exact .inr fun hnone => hok ⟨by simpa using hg, .inr hnone⟩
  · obtain rfl := Except.ok.inj h
    exact ⟨rfl, .inl rfl, fun hw => absurd hw hwait, fun _ => .inr hkeep.1⟩
  · obtain ⟨-, -, h⟩ := except_bind_ok.mp h
    obtain rfl := except_pure_ok.mp h
    exact ⟨rfl, .inr rfl, fun hw => absurd hw hwait, fun hne => absurd rfl hne⟩
  · obtain rfl := Except.ok.inj h
    refine ⟨rfl, .inl rfl, fun hw => absurd hw hwait, fun hne => ?_⟩
    exact absurd (.inl hne) hset

/-- Only an active item keeps a job. -/
theorem settleJob_spec {status : Status} {d' : Draft} (h : settleJob w status d = .ok d') :
    d'.tx = d.tx ∧ (d'.it = d.it ∨ d'.it = d.it.clearJob)
      ∧ (d'.it.job ≠ none → status = .active) := by
  unfold settleJob at h
  split at h
  · obtain ⟨-, -, h⟩ := except_bind_ok.mp h
    obtain rfl := except_pure_ok.mp h
    exact ⟨rfl, .inr rfl, fun hne => absurd rfl hne⟩
  · next hactive =>
    obtain ⟨-, -, h⟩ := except_bind_ok.mp h
    obtain rfl := except_pure_ok.mp h
    exact ⟨rfl, .inl rfl, fun _ => by simpa using hactive⟩

/-- Who is held with settled roles in an owned status has one owner. -/
theorem checkOwner_ok {n : Nat} {status : Status} {holders : List Holder}
    (h : checkOwner n status holders = .ok ⟨⟩) (ho : status.owned = true) (hh : holders ≠ [])
    (hs : ∀ x ∈ holders, x.settled = true) : (holders.filter Holder.owns).length = 1 := by
  unfold checkOwner at h
  obtain ⟨_, hsome, h⟩ := except_bind_ok.mp h
  have hsome := except_refuse_ok.mp hsome
  have hone := except_refuse_ok.mp h
  have happ : status.owned = true ∧ holders ≠ [] ∧ holders.all Holder.settled = true :=
    ⟨ho, hh, List.all_eq_true.mpr hs⟩
  have hne : holders.filter Holder.owns ≠ [] := fun he => hsome ⟨happ, he⟩
  have hle : ¬ 1 < (holders.filter Holder.owns).length := fun hl => hone ⟨happ, hl⟩
  have hpos := List.length_pos_iff.mpr hne
  omega

/-! ## The first half -/

/-- What a settled item says, and what of the transaction it left. -/
structure SettleSpec (w : Write) (tx : BoardTx) (before : Item) (s : Settled) : Prop where
  marked : tx.Marked s.tx
  status : s.it.status = s.status
  n : s.it.n = before.n
  identity : s.it.identity = before.identity
  closedAt : s.it.closedAt = before.closedAt
  openFlags : s.it.openFlags = before.openFlags
  holders : s.it.holders = before.holders ∨ w.n ∈ s.tx.holdersChanged
  blockedBy : s.it.blockedBy = before.blockedBy ∨ w.n ∈ s.tx.depsChanged
  blockers : ∀ b ∈ s.it.blockedBy, b ∈ before.blockedBy ∨ checkBlocker w s.tx b = .ok ⟨⟩
  blocked : ∀ b ∈ s.it.blockedBy, s.it.status = .blocked
  trigger : s.it.blockedOn ≠ none → s.it.status = .blocked ∨ s.it.status = .blockedOnOwner
  text : before.blockedOn ≠ some "" → s.it.blockedOn ≠ some ""
  checkBack : s.it.checkBackAt ≠ none → s.it.status = .blocked
  waiting : s.it.status = .waiting → s.it.etaAt ≠ none
  eta : s.it.etaAt ≠ none → s.it.status = .waiting ∨ s.it.status = .active
  job : s.it.job ≠ none → s.it.status = .active
  owner : s.it.status.owned = true → s.it.holders ≠ [] → (∀ h ∈ s.it.holders, h.settled = true) →
    (s.it.holders.filter Holder.owns).length = 1
  done : s.it.status = .done →
    w.fields.lookup "status" = some (.str "done") ∨ w.prevStatus before = some .done
  closing : w.fields.lookup "status" = some (.str "done") → s.it.status = .done

/-- The marks of one item do not bear on whether a blocker passes. -/
theorem checkBlocker_items {tx tx' : BoardTx} (h : tx'.items = tx.items) {b : Nat} :
    checkBlocker w tx' b = checkBlocker w tx b := by
  unfold checkBlocker
  rw [h]

section

variable [Runtime]

theorem settle_ok {tx : BoardTx} {before : Item} {s : Settled}
    (h : settle w ⟨tx, before⟩ = .ok s) : SettleSpec w tx before s := by
  unfold settle at h
  obtain ⟨_, -, h⟩ := except_bind_ok.mp h
  obtain ⟨explicit, hexplicit, h⟩ := except_bind_ok.mp h
  obtain ⟨d1, hfields, h⟩ := except_bind_ok.mp h
  obtain ⟨hstep, heta⟩ := setFields_ok hfields
  obtain ⟨d2, hd2⟩ : ∃ d2, setHolders w d1 = d2 := ⟨_, rfl⟩
  rw [hd2] at h
  obtain ⟨hm2, hit2, hh2⟩ := setHolders_spec hd2
  obtain ⟨d3, hblockers, h⟩ := except_bind_ok.mp h
  obtain ⟨hm3, hit3, hb3⟩ := setBlockers_spec hblockers
  obtain ⟨held, hheld⟩ : ∃ held, decide (newHolders w d1.it ≠ []) = held := ⟨_, rfl⟩
  rw [hheld] at h
  obtain ⟨status, hstatus⟩ : ∃ status, (deriveStatus w d3.tx d3.it explicit held
    (holdersChange w d1.it)).1 = status := ⟨_, rfl⟩
  simp only [hstatus] at h
  obtain ⟨_, -, h⟩ := except_bind_ok.mp h
  obtain ⟨_, -, h⟩ := except_bind_ok.mp h
  obtain ⟨_, -, h⟩ := except_bind_ok.mp h
  obtain ⟨d4, hblocked, h⟩ := except_bind_ok.mp h
  obtain ⟨hm4, hit4⟩ := settleBlocked_spec hblocked
  obtain ⟨d5, hset, h⟩ := except_bind_ok.mp h
  obtain ⟨htx5, hit5, hwait, hkeep⟩ := settleEta_spec hset
  obtain ⟨d6, hjob, h⟩ := except_bind_ok.mp h
  obtain ⟨htx6, hit6, hjob6⟩ := settleJob_spec hjob
  obtain ⟨_, howner, h⟩ := except_bind_ok.mp h
  obtain rfl := except_pure_ok.mp h
  -- The later steps change a few fields each; the rest is the draft's that `setFields` left.
  have hbase : d6.it.base = before.base := by
    have h4 : d4.it.base = d3.it.base := by
      rcases hit4 with ⟨-, h4⟩ | ⟨-, h4, -⟩
      · rw [h4]
      · rw [h4]
        rfl
    have h6 : d6.it.base = d4.it.base := by
      rcases hit5 with h5 | h5 <;> rcases hit6 with h6 | h6 <;> rw [h6, h5] <;> rfl
    rw [h6, h4, hit3, hit2]
    exact hstep.base
  have hlate : d6.it.blockedBy = d4.it.blockedBy ∧ d6.it.blockedOn = d4.it.blockedOn
      ∧ d6.it.checkBackAt = d4.it.checkBackAt ∧ d6.it.holders = d4.it.holders := by
    rcases hit5 with h5 | h5 <;> rcases hit6 with h6 | h6
    all_goals
      rw [h6, h5]
      exact ⟨rfl, rfl, rfl, rfl⟩
  obtain ⟨hblockedBy, hblockedOn, hcheckBack, hholders⟩ := hlate
  have hearly : d3.it.blockedOn = d1.it.blockedOn ∧ d3.it.etaAt = d1.it.etaAt
      ∧ d3.it.holders = d2.it.holders ∧ d2.it.blockedBy = d1.it.blockedBy := by
    rw [hit3, hit2]
    exact ⟨rfl, rfl, rfl, rfl⟩
  obtain ⟨hblockedOn3, heta3, hholders3, hblockedBy2⟩ := hearly
  have hmid : d4.it.holders = d3.it.holders ∧ d4.it.etaAt = d3.it.etaAt := by
    rcases hit4 with ⟨-, h4⟩ | ⟨-, h4, -⟩
    · rw [h4]
      exact ⟨rfl, rfl⟩
    · rw [h4]
      exact ⟨rfl, rfl⟩
  have heta6 : d6.it.etaAt = d5.it.etaAt := by
    rcases hit6 with h6 | h6
    · rw [h6]
    · rw [h6]
      rfl
  have hmarked : d3.tx.Marked d6.tx := by
    rw [htx6, htx5]
    exact BoardTx.Marked.warnAll.trans hm4
  have hmarked1 : d1.tx.Marked d6.tx := (hm2.trans hm3).trans hmarked
  exact {
    marked := (BoardTx.Marked.of_ledger hstep.ledger).trans hmarked1
    status := rfl
    n := congrArg Base.n hbase
    identity := congrArg Base.identity hbase
    closedAt := congrArg Base.closedAt hbase
    openFlags := congrArg Base.openFlags hbase
    holders := by
      rcases hh2 with hh | hh
      · exact .inl ((((hholders.trans hmid.1).trans hholders3).trans hh).trans hstep.holders)
      · exact .inr ((hm3.trans hmarked).holders _ hh)
    blockedBy := by
      rcases hb3 with hb | ⟨hb, -⟩
      · have hold := (hb.trans hblockedBy2).trans hstep.blockedBy
        rcases hit4 with ⟨-, h4⟩ | ⟨-, h4, hempty | hdeps⟩
        · exact .inl ((hblockedBy.trans (h4 ▸ rfl)).trans hold)
        · refine .inl ((hblockedBy.trans (h4 ▸ rfl)).trans (hempty.symm.trans hold))
        · rw [← htx5, ← htx6] at hdeps
          exact .inr hdeps
      · exact .inr (hmarked.deps _ hb)
    blockers := by
      intro b hmem
      have hmem3 : b ∈ d3.it.blockedBy := by
        rcases hit4 with ⟨-, h4⟩ | ⟨-, h4, -⟩
        · rw [← h4, ← hblockedBy]
          exact hmem
        · refine absurd hmem ?_
          show b ∉ d6.it.blockedBy
          rw [hblockedBy, h4]
          exact Std.ExtTreeSet.not_mem_empty
      rcases hb3 with hb | ⟨-, hb⟩
      · exact .inl (((hb.trans hblockedBy2).trans hstep.blockedBy) ▸ hmem3)
      · refine .inr ((checkBlocker_items ?_).trans (hb b hmem3))
        exact hmarked.items.trans hm3.items |>.trans rfl
    blocked := by
      intro b hmem
      rcases hit4 with ⟨hst, -⟩ | ⟨-, h4, -⟩
      · exact hst
      · refine absurd hmem ?_
        show b ∉ d6.it.blockedBy
        rw [hblockedBy, h4]
        exact Std.ExtTreeSet.not_mem_empty
    trigger := by
      intro hne
      rcases hit4 with ⟨hst, -⟩ | ⟨-, h4, -⟩
      · exact .inl hst
      · have hne' : d6.it.blockedOn ≠ none := hne
        rw [hblockedOn, h4] at hne'
        unfold Item.clearBlock at hne'
        simp only at hne'
        split at hne'
        · next hst => exact .inr hst
        · exact absurd rfl hne'
    text := by
      intro htext
      have h3 : d3.it.blockedOn ≠ some "" := hblockedOn3 ▸ hstep.text htext
      show d6.it.blockedOn ≠ some ""
      rcases hit4 with ⟨-, h4⟩ | ⟨-, h4, -⟩ <;> rw [hblockedOn, h4]
      · exact h3
      · unfold Item.clearBlock
        simp only
        split
        · exact h3
        · simp
    checkBack := by
      intro hne
      rcases hit4 with ⟨hst, -⟩ | ⟨-, h4, -⟩
      · exact hst
      · have hne' : d6.it.checkBackAt ≠ none := hne
        rw [hcheckBack, h4] at hne'
        exact absurd rfl hne'
    waiting := by
      intro hst
      obtain ⟨h5, hgiven⟩ := hwait hst
      show d6.it.etaAt ≠ none
      rw [heta6, h5]
      rcases hgiven with hg | hne
      · rw [hmid.2, heta3]
        exact heta hg
      · exact hne
    eta := by
      intro hne
      have hne' : d6.it.etaAt ≠ none := hne
      exact hkeep (heta6 ▸ hne')
    job := fun hne => hjob6 hne
    owner := fun ho hh hs => checkOwner_ok howner ho hh hs
    done := by
      intro hst
      have hd : (deriveStatus w d3.tx d3.it explicit held (holdersChange w d1.it)).1 = .done :=
        hstatus.trans hst
      rcases deriveStatus_done hd with he | hprev
      · exact .inl (explicitStatus_some (he ▸ hexplicit))
      · refine .inr ?_
        have hs3 : d3.it.status = before.status := by
          rw [hit3, hit2]
          exact hstep.status
        unfold Write.prevStatus at hprev ⊢
        rwa [hs3] at hprev
    closing := by
      intro hw
      obtain rfl := explicitStatus_done hexplicit hw
      exact hstatus.symm.trans deriveStatus_explicit }

end

end Board
