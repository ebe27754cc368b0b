import ClaudeManager.Messaging.Frames
import ClaudeManager.Program.Sorted

/-!
# Cursors

* the order of read cursors is a linear one
* `entriesAfter_eq` — the partition point of a sorted vector counts what lies after a cursor
* `Store.Forward` — every participant's cursors are where they were, or later
* `reduce_forward` — a reduction moves no cursor back, whether it succeeds or fails
-/

namespace ClaudeManager

open Json Containers Program

/-! ## The order -/

namespace ReadCursor

theorem lt_def {a b : ReadCursor} : a < b ↔
    a.logicalTime < b.logicalTime ∨ a.logicalTime = b.logicalTime ∧ a.eventId < b.eventId := Iff.rfl

theorem le_def {a b : ReadCursor} : a ≤ b ↔ ¬ b < a := Iff.rfl

theorem before_or_after (a b : ReadCursor) : a < b ∨ a = b ∨ b < a := by
  obtain ⟨n, i⟩ := a
  obtain ⟨m, j⟩ := b
  rcases Nat.lt_trichotomy n m with h | rfl | h
  · exact .inl (.inl h)
  · rcases lt_trichotomy i j with h | rfl | h
    · exact .inl (.inr ⟨rfl, h⟩)
    · exact .inr (.inl rfl)
    · exact .inr (.inr (.inr ⟨rfl, h⟩))
  · exact .inr (.inr (.inl h))

theorem not_before_self (a : ReadCursor) : ¬ a < a := by
  rintro (h | ⟨-, h⟩)
  · exact Nat.lt_irrefl _ h
  · exact lt_irrefl _ h

theorem before_trans {a b c : ReadCursor} (hab : a < b) (hbc : b < c) : a < c := by
  rw [lt_def] at *
  rcases hab with hab | ⟨hab, hab'⟩ <;> rcases hbc with hbc | ⟨hbc, hbc'⟩
  · exact .inl (by omega)
  · exact .inl (by omega)
  · exact .inl (by omega)
  · exact .inr ⟨hab.trans hbc, hab'.trans hbc'⟩

instance : LinearOrder ReadCursor where
  le := (· ≤ ·)
  lt := (· < ·)
  le_refl := not_before_self
  le_trans a b c hab hbc hca := by
    rcases before_or_after a b with h | rfl | h
    · exact hbc (before_trans hca h)
    · exact hbc hca
    · exact hab h
  le_antisymm a b hab hba := by
    rcases before_or_after a b with h | h | h
    · exact absurd h hba
    · exact h
    · exact absurd h hab
  le_total a b := by
    rcases before_or_after a b with h | rfl | h
    · exact .inl fun h' => not_before_self a (before_trans h h')
    · exact .inl (not_before_self a)
    · exact .inr fun h' => not_before_self a (before_trans h' h)
  lt_iff_le_not_ge a b := by
    constructor
    · exact fun h => ⟨fun h' => not_before_self a (before_trans h h'), fun h' => h' h⟩
    · exact fun h => not_not.mp h.2
  toDecidableLE := inferInstance
  toDecidableEq := inferInstance
  toDecidableLT := inferInstance

end ReadCursor

theorem EntryLt.trans {a b c : ReadCursor × Nat} (hab : EntryLt a b) (hbc : EntryLt b c) :
    EntryLt a c := by
  rcases hab with hab | ⟨hab, hab'⟩ <;> rcases hbc with hbc | ⟨hbc, hbc'⟩
  · exact .inl (hab.trans hbc)
  · exact .inl (hbc ▸ hab)
  · exact .inl (hab ▸ hbc)
  · exact .inr ⟨hab.trans hbc, by omega⟩

theorem EntryLt.total (a b : ReadCursor × Nat) : EntryLt a b ∨ a = b ∨ EntryLt b a := by
  rcases lt_trichotomy a.1 b.1 with h | h | h
  · exact .inl (.inl h)
  · rcases Nat.lt_trichotomy a.2 b.2 with h' | h' | h'
    · exact .inl (.inr ⟨h, h'⟩)
    · exact .inr (.inl (Prod.ext h h'))
    · exact .inr (.inr (.inr ⟨h.symm, h'⟩))
  · exact .inr (.inr (.inl h))

/-! ## Partition points -/

namespace Store

/-- Nothing is read yet, or the cursor lies before `k`. -/
def isAfter (cursor : Option ReadCursor) (k : ReadCursor) : Bool := cursor.all (· < k)

/-- The partition point of a sorted vector counts what lies after a cursor. -/
theorem entriesAfter_eq {α : Type} {key : α → ReadCursor} {cursor : Option ReadCursor} {v : List α}
    (h : v.Pairwise fun a b => key a ≤ key b) :
    entriesAfter key cursor v = v.countP fun k => isAfter cursor (key k) := by
  unfold entriesAfter
  cases cursor with
  | none => simp [isAfter]
  | some r =>
    have hsplit : v.takeWhile (fun k => key k ≤ r) = v.filter fun k => key k ≤ r :=
      takeWhile_eq_filter (h.imp fun hab hb => by
        rw [decide_eq_true_eq] at hb ⊢
        exact hab.trans hb)
    have hcount := List.length_eq_countP_add_countP (fun k => decide (key k ≤ r)) (l := v)
    have hafter : v.countP (fun k => isAfter (some r) (key k))
        = v.countP fun a => decide ¬ decide (key a ≤ r) = true := by
      refine List.countP_congr fun k _ => ?_
      simp [isAfter]
    show v.length - (v.takeWhile fun k => key k ≤ r).length = _
    rw [hsplit, ← List.countP_eq_length_filter, hafter]
    omega

end Store

/-! ## Cursors move forward -/

namespace Store

/-- How far a participant has read in a conversation. -/
def cursor (s : Store) (actor cid : String) : Option ReadCursor :=
  s.reads[actor]?.bind (·.cursors[cid]?)

/-- Every cursor of `reads` is in `reads'`, or a later one is. -/
def ForwardReads (reads reads' : Map ReadState) : Prop :=
  ∀ (actor cid : String) (c : ReadCursor), (reads[actor]?.bind (·.cursors[cid]?)) = some c →
    ∃ c', (reads'[actor]?.bind (·.cursors[cid]?)) = some c' ∧ c ≤ c'

theorem ForwardReads.refl (reads : Map ReadState) : ForwardReads reads reads :=
  fun _ _ c h => ⟨c, h, le_refl c⟩

theorem ForwardReads.trans {r r' r'' : Map ReadState} (h : ForwardReads r r')
    (h' : ForwardReads r' r'') : ForwardReads r r'' := by
  intro actor cid c hc
  obtain ⟨c', hc', hle⟩ := h actor cid c hc
  obtain ⟨c'', hc'', hle'⟩ := h' actor cid c' hc'
  exact ⟨c'', hc'', hle.trans hle'⟩

theorem ForwardReads.foldl {α : Type} {f : Map ReadState → α → Map ReadState}
    (hf : ∀ r a, ForwardReads r (f r a)) : ∀ (l : List α) (r : Map ReadState),
    ForwardReads r (l.foldl f r)
  | [], r => .refl r
  | a :: l, r => (hf r a).trans (ForwardReads.foldl hf l (f r a))

theorem le_advance (cursor old : ReadCursor) : old ≤ advance cursor old := by
  unfold advance
  split
  · exact le_of_lt ‹_›
  · exact le_refl old

theorem forward_mergeCursor {reads : Map ReadState} {actor cid : String} {cursor : ReadCursor} :
    ForwardReads reads (mergeCursor reads actor cid cursor) := by
  intro a conv c hc
  unfold mergeCursor
  rw [getElem?_upsert]
  by_cases ha : a = actor
  · subst ha
    rw [if_pos rfl, Option.bind_some, getElem?_upsert]
    obtain ⟨r, hr, hcursor⟩ := Option.bind_eq_some_iff.mp hc
    have hentry : entryD reads a {} = r := by
      unfold entryD
      rw [hr]
      rfl
    rw [hentry]
    by_cases hcid : conv = cid
    · subst hcid
      rw [if_pos rfl]
      refine ⟨_, rfl, ?_⟩
      unfold entryD
      rw [hcursor]
      exact le_advance cursor c
    · rw [if_neg hcid]
      exact ⟨c, hcursor, le_refl c⟩
  · rw [if_neg ha]
    exact ⟨c, hc, le_refl c⟩

/-- Every participant's cursors are where they were, or later. -/
def Forward (s t : Store) : Prop := ForwardReads s.reads t.reads

instance : Std.Refl Forward := ⟨fun s => .refl s.reads⟩

instance : IsTrans Store Forward := ⟨fun _ _ _ h h' => ForwardReads.trans h h'⟩

theorem Forward.of_eq {s t : Store} (h : s.reads = t.reads) : Forward s t := by
  unfold Forward
  rw [h]
  exact .refl t.reads

theorem forward_mergeLegacyMemory {s : Store} {actor : String} {ids : List String} :
    Forward s (s.mergeLegacyMemory actor ids) := by
  rw [mergeLegacyMemory_eq]
  show ForwardReads s.reads (ids.foldl (acknowledge s.published actor)
    (s.reads, s.readModel.pendingLegacy)).1
  suffices h : ∀ (m : Map ReadState × Map StrSet),
      ForwardReads m.1 (ids.foldl (acknowledge s.published actor) m).1 from
    h (s.reads, s.readModel.pendingLegacy)
  induction ids with
  | nil => exact fun m => .refl m.1
  | cons id ids ih =>
    intro m
    refine ForwardReads.trans ?_ (ih _)
    unfold acknowledge
    split
    · exact forward_mergeCursor
    · exact .refl m.1

theorem forward_settledMemory {m : Map ReadState × Map StrSet} {e : Value} :
    ForwardReads m.1 (settledMemory m e).1 := by
  unfold settledMemory
  split
  · split
    · exact ForwardReads.foldl (fun _ _ => forward_mergeCursor) _ _
    · exact .refl m.1
  · exact .refl m.1

end Store

section

variable [Externals] {s : Store} {e : Value}

theorem reducePrivateSync_forward : Evolves Store.Forward (reducePrivateSync e) s := by
  unfold reducePrivateSync
  refine .ite (fun _ => .bind_query fun ids _ => .of_modify Store.forward_mergeLegacyMemory)
    fun _ => .ite (fun _ => ?_) fun _ => .pure
  unfold reduceCursorEvent
  refine .bind_query fun cursors _ => .of_modify ?_
  rw [Store.foldl_retainCursor]
  exact Store.ForwardReads.foldl (fun _ _ => Store.forward_mergeCursor) _ _

/-- A reduction moves no cursor back, whether it succeeds or fails. -/
theorem reduce_forward : Evolves Store.Forward (reduce e) s := by
  have hrest : ∀ s t, Alike Store.sansRest s t → Store.Forward s t := by
    intro s t h
    refine .of_eq ?_
    show s.sansRest.reads = t.sansRest.reads
    rw [h]
  refine reduce_evolves hrest (fun _ => reducePrivateSync_forward) fun s => ?_
  unfold reduceIdentity
  split
  · exact .pure
  · exact .bind_check fun _ _ => .bind_check fun _ _ => .bind_get (.bind_refuse fun _ =>
      .ite (fun _ => .of_modify (.of_eq rfl)) fun _ => .pure)

end

end ClaudeManager
