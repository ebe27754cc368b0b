import Mathlib
import ClaudeManager.Board.Operations

/-!
# Quiet effects

What leaves a board's items as its rules see them: history, messages, clocks, and flags that
are resolved.

* `Shape` — the fields of an item the rules look at, its flags apart
* `Quiet` — every item keeps its shape, and no flag opens
-/

namespace Board

open Json Python Containers Program

/-- The fields of an item the rules look at, its flags apart. -/
structure Shape where
  n : Nat
  status : Status
  blockedOn : Option String
  checkBackAt : Option Instant
  etaAt : Option Instant
  job : Option String
  closedAt : Option Instant
  holders : List Holder
  blockedBy : NatSet

def Item.shape (it : Item) : Shape :=
  ⟨it.n, it.status, it.blockedOn, it.checkBackAt, it.etaAt, it.job, it.closedAt, it.holders,
    it.blockedBy⟩

/-- The same item, with at most the flags it had. -/
structure Item.Rests (it it' : Item) : Prop where
  shape : it'.shape = it.shape
  flags : ∀ k, k ∈ it'.openFlags → k ∈ it.openFlags

namespace Item.Rests

variable {it it' it'' : Item}

theorem refl (it : Item) : it.Rests it := ⟨rfl, fun _ hk => hk⟩

theorem trans (h : it.Rests it') (h' : it'.Rests it'') : it.Rests it'' :=
  ⟨h'.shape.trans h.shape, fun k hk => h.flags k (h'.flags k hk)⟩

theorem status (h : it.Rests it') : it'.status = it.status := congrArg Shape.status h.shape

theorem n (h : it.Rests it') : it'.n = it.n := congrArg Shape.n h.shape

theorem blockedBy (h : it.Rests it') : it'.blockedBy = it.blockedBy :=
  congrArg Shape.blockedBy h.shape

theorem blockedOn (h : it.Rests it') : it'.blockedOn = it.blockedOn :=
  congrArg Shape.blockedOn h.shape

theorem checkBackAt (h : it.Rests it') : it'.checkBackAt = it.checkBackAt :=
  congrArg Shape.checkBackAt h.shape

theorem holders (h : it.Rests it') : it'.holders = it.holders :=
  congrArg Shape.holders h.shape

theorem closedAt (h : it.Rests it') : it'.closedAt = it.closedAt :=
  congrArg Shape.closedAt h.shape

theorem etaAt (h : it.Rests it') : it'.etaAt = it.etaAt := congrArg Shape.etaAt h.shape

theorem job (h : it.Rests it') : it'.job = it.job := congrArg Shape.job h.shape

end Item.Rests

/-- Every item keeps its shape, and no flag opens. -/
structure Quiet (tx tx' : BoardTx) : Prop where
  board : tx'.board = tx.board
  back : ∀ (m : Nat) (it' : Item), tx'.items[m]? = some it' →
    ∃ it : Item, tx.items[m]? = some it ∧ it.Rests it'
  forth : ∀ (m : Nat) (it : Item), tx.items[m]? = some it →
    ∃ it' : Item, tx'.items[m]? = some it' ∧ it.Rests it'

namespace Quiet

variable {tx tx' tx'' : BoardTx}

theorem of_items (hb : tx'.board = tx.board) (h : tx'.items = tx.items) : Quiet tx tx' := by
  refine ⟨hb, ?_, ?_⟩
  · intro m it hm
    exact ⟨it, h ▸ hm, .refl it⟩
  · intro m it hm
    exact ⟨it, h ▸ hm, .refl it⟩

theorem refl (tx : BoardTx) : Quiet tx tx := of_items rfl rfl

theorem trans (h : Quiet tx tx') (h' : Quiet tx' tx'') : Quiet tx tx'' := by
  refine ⟨h'.board.trans h.board, ?_, ?_⟩
  · intro m it'' hm
    obtain ⟨it', hm', hr'⟩ := h'.back m it'' hm
    obtain ⟨it, hm, hr⟩ := h.back m it' hm'
    exact ⟨it, hm, hr.trans hr'⟩
  · intro m it hm
    obtain ⟨it', hm', hr⟩ := h.forth m it hm
    obtain ⟨it'', hm'', hr'⟩ := h'.forth m it' hm'
    exact ⟨it'', hm'', hr.trans hr'⟩

/-- A fold of quiet steps. -/
theorem foldl {α : Type} {f : BoardTx → α → BoardTx} (hf : ∀ tx a, Quiet tx (f tx a)) (l : List α)
    (tx : BoardTx) : Quiet tx (l.foldl f tx) := by
  induction l generalizing tx with
  | nil => exact refl tx
  | cons a l ih => exact (hf tx a).trans (ih (f tx a))

end Quiet

/-! ## Changes to one item -/

namespace BoardTx

variable {tx : BoardTx} {n m : Nat} {f : Item → Item} {it : Item}

theorem modifyItem_items :
    (tx.modifyItem n f).items[m]? = if m = n then tx.items[n]?.map f else tx.items[m]? := by
  unfold modifyItem
  cases h : tx.items[n]? with
  | none =>
    by_cases hm : m = n
    · simp [hm, h]
    · simp [hm]
  | some it =>
    simp only [natMap_getElem?_insert]
    by_cases hm : m = n <;> simp [hm]

@[simp] theorem modifyItem_board : (tx.modifyItem n f).board = tx.board := rfl

@[simp] theorem setItem_board : (tx.setItem n it).board = tx.board := rfl

theorem setItem_items :
    (tx.setItem n it).items[m]? = if m = n then some it else tx.items[m]? :=
  natMap_getElem?_insert

theorem quiet_modifyItem (hf : ∀ it, Item.Rests it (f it)) : Quiet tx (tx.modifyItem n f) := by
  refine ⟨rfl, ?_, ?_⟩
  · intro m it' hm
    rw [modifyItem_items] at hm
    by_cases h : m = n
    · rw [if_pos h] at hm
      obtain ⟨it, hit, rfl⟩ := Option.map_eq_some_iff.mp hm
      exact ⟨it, h ▸ hit, hf it⟩
    · rw [if_neg h] at hm
      exact ⟨it', hm, .refl it'⟩
  · intro m it hm
    rw [modifyItem_items]
    by_cases h : m = n
    · rw [if_pos h, ← h, hm]
      exact ⟨f it, rfl, hf it⟩
    · rw [if_neg h]
      exact ⟨it, hm, .refl it⟩

/-! ## Marks, history and messages -/

theorem quiet_markDirty : Quiet tx (tx.markDirty n) := .of_items rfl rfl

theorem quiet_markDeps : Quiet tx (tx.markDeps n) := .of_items rfl rfl

theorem quiet_warn {text : String} : Quiet tx (tx.warn text) := .of_items rfl rfl

theorem quiet_event {type : String} {prev new : Value} {reason : Option String} :
    Quiet tx (tx.event n type prev new reason) := .of_items rfl rfl

theorem quiet_recordResolved {mark : FlagSettled} : Quiet tx (tx.recordResolved mark) :=
  .of_items rfl rfl

theorem quiet_closeFlag {kind : String} : Quiet tx (tx.closeFlag n kind) := by
  refine quiet_modifyItem fun it => ⟨rfl, ?_⟩
  intro k hk
  exact (Std.ExtTreeMap.mem_erase.mp hk).2

theorem quiet_warnStrict : Quiet tx (tx.warnStrict n it) := by
  unfold warnStrict
  split
  · exact quiet_warn
  · exact .refl tx

theorem quiet_recordTransition {prev : Option Status} {status : Status} :
    Quiet tx (tx.recordTransition n prev status) := by
  unfold recordTransition
  simp only
  split_ifs <;> exact .of_items rfl rfl

theorem quiet_recordResolution {action : String} {kinds : List String} {reason : Option String} :
    Quiet tx (tx.recordResolution n action kinds reason) := quiet_event

theorem quiet_recordOwner {prevOwner : Option String} {prev : Option Status} :
    Quiet tx (tx.recordOwner n prevOwner prev it) := by
  unfold recordOwner
  simp only
  split_ifs <;> exact .of_items rfl rfl

theorem quiet_checkIn : Quiet tx (tx.checkIn n) := by
  refine Quiet.trans (quiet_modifyItem ?_) quiet_markDirty
  intro it
  exact ⟨rfl, fun _ hk => hk⟩

section

variable [Runtime]

theorem quiet_push {h : Holder} {kind text : String} : Quiet tx (tx.push n h kind text) := by
  unfold push
  split
  · exact .of_items rfl rfl
  · exact .refl tx

theorem quiet_pushAll {holders : List Holder} {kind text : String} :
    Quiet tx (tx.pushAll n holders kind text) :=
  Quiet.foldl (fun _ _ => quiet_push) holders tx

/-! ## Flags that go -/

theorem quiet_resolveFlag {kind resolution : String} {snooze : Option Instant} :
    Quiet tx (tx.resolveFlag n kind resolution snooze) := by
  unfold resolveFlag
  split
  · exact (quiet_closeFlag.trans quiet_recordResolved).trans quiet_event
  · exact .refl tx

theorem quiet_resolveFlags {kinds : List String} {resolution : String} :
    Quiet tx (tx.resolveFlags n kinds resolution) :=
  Quiet.foldl (fun _ _ => quiet_resolveFlag) kinds tx

theorem quiet_clearBlockerDropped : Quiet tx (tx.clearBlockerDropped n) := by
  unfold clearBlockerDropped
  split
  · split
    · exact .refl tx
    · exact quiet_resolveFlag
  · exact .refl tx

/-! ## Steps of a write that are quiet -/

theorem quiet_clearPickOwner {holders : List Holder} : Quiet tx (tx.clearPickOwner n holders) := by
  unfold clearPickOwner
  split
  · exact quiet_resolveFlag
  · exact .refl tx

theorem quiet_announce {w : Write} {before : Item} : Quiet tx (tx.announce w before it) :=
  ((quiet_recordOwner.trans quiet_clearPickOwner).trans quiet_warnStrict).trans
    quiet_recordTransition

theorem quiet_recheckDeps {tx' : BoardTx} (h : tx.recheckDeps n it = .ok tx') : Quiet tx tx' := by
  unfold recheckDeps at h
  split at h
  · obtain ⟨_, -, h⟩ := except_bind_ok.mp h
    obtain rfl := except_pure_ok.mp h
    exact quiet_clearBlockerDropped
  · obtain rfl := Except.ok.inj h
    exact .refl tx

theorem quiet_settleSuggestion {w : Write} {before : Item} :
    Quiet tx (tx.settleSuggestion w before it) := by
  unfold settleSuggestion
  split
  · exact quiet_resolveFlag
  · exact .refl tx

theorem quiet_pushAssigned {prevPids : List String} : Quiet tx (tx.pushAssigned n it prevPids) :=
  Quiet.foldl (fun _ _ => quiet_push) _ tx

theorem quiet_recordWrite {w : Write} {before after : Item} :
    Quiet tx (tx.recordWrite w before after) := by
  unfold recordWrite
  simp only
  split_ifs <;> exact quiet_event

theorem quiet_finish {w : Write} {before : Item} : Quiet tx (tx.finish w before) := by
  unfold finish
  have htouch : Quiet tx (tx.modifyItem w.n fun it => { it with touchedAt := some tx.now }) :=
    quiet_modifyItem fun it => ⟨rfl, fun _ hk => hk⟩
  simp only
  split
  · exact htouch
  · exact ((htouch.trans quiet_pushAssigned).trans quiet_markDirty).trans quiet_recordWrite

theorem quiet_dismiss {target : Value} : Quiet tx (tx.dismiss n target) := by
  refine Quiet.trans (quiet_modifyItem ?_) quiet_markDirty
  intro it
  exact ⟨rfl, fun _ hk => hk⟩

end

end BoardTx

end Board
