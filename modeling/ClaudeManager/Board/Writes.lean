import Mathlib
import ClaudeManager.Board.Commit

/-!
# One write

* `Moved` — what a write on one item does to another
* `apply_ok` — a write that is not refused keeps a board consistent, and moves no other item
  but the dependents of an item that is set done
-/

namespace Board

open Json Python Containers Program BoardTx

variable {tx tx' : BoardTx} {n : Nat} {P : Set Nat}

/-! ## What a write does to another item -/

/-- What a write on `n` does to another item: where it says `done`, the item loses the
blocker, and goes on if it waited for `n` alone. -/
structure Moved (done : Prop) (n : Nat) (it it' : Item) : Prop where
  shape : it'.shape = { it.shape with blockedBy := it'.blockedBy, status := it'.status }
  blockedBy : it'.blockedBy = it.blockedBy ∨ done ∧ it'.blockedBy = it.blockedBy.erase n
  status : it'.status = it.status ∨
    done ∧ n ∈ it.blockedBy ∧ Freed n it ∧ (it'.status = .active ∨ it'.status = .open)
  suggestion : suggested ∈ it'.openFlags → suggested ∈ it.openFlags

namespace Moved

variable {done : Prop} {it it' it'' : Item}

theorem of_rests (h : it.Rests it') : Moved done n it it' := by
  refine ⟨?_, .inl h.blockedBy, .inl h.status, h.flags _⟩
  rw [h.shape, h.blockedBy, h.status]
  rfl

theorem of_flagged (h : Flagged it it') : Moved done n it it' := by
  refine ⟨?_, .inl h.blockedBy, .inl h.status, fun hk => ?_⟩
  · rw [h.shape, h.blockedBy, h.status]
    rfl
  · rcases h.flags _ hk with hold | ⟨heq, -⟩
    · exact hold
    · exact absurd heq (by decide)

theorem of_lightened (hd : done) (hn : n ∈ it.blockedBy) (h : Lightened n it it') :
    Moved done n it it' := by
  have heq : it'.blockedBy = it.blockedBy.erase n := congrArg Shape.blockedBy h.shape
  refine ⟨?_, .inr ⟨hd, heq⟩, ?_, h.flags _⟩
  · rw [heq]
    exact h.shape
  · rcases h.status with hst | ⟨hfreed, hst⟩
    · exact .inl hst
    · exact .inr ⟨hd, hn, hfreed, hst⟩

theorem imp {done' : Prop} (hd : done → done') (h : Moved done n it it') : Moved done' n it it' :=
  ⟨h.shape, h.blockedBy.imp_right fun h => ⟨hd h.1, h.2⟩,
    h.status.imp_right fun h => ⟨hd h.1, h.2⟩, h.suggestion⟩

theorem after (h : it.Rests it') (h' : Moved done n it' it'') : Moved done n it it'' := by
  have hfreed : Freed n it' → Freed n it := by
    rintro ⟨h1, h2, h3⟩
    exact ⟨h.status ▸ h1, h.blockedOn ▸ h2, h.blockedBy ▸ h3⟩
  refine ⟨?_, ?_, ?_, fun hk => h.flags _ (h'.suggestion hk)⟩
  · rw [h'.shape, h.shape]
  · rw [← h.blockedBy]
    exact h'.blockedBy
  · rw [← h.status, ← h.blockedBy]
    exact h'.status.imp_right fun ⟨h1, h2, h3, h4⟩ => ⟨h1, h2, hfreed h3, h4⟩

theorem before (h : Moved done n it it') (h' : it'.Rests it'') : Moved done n it it'' := by
  refine ⟨?_, ?_, ?_, fun hk => h.suggestion (h'.flags _ hk)⟩
  · rw [h'.shape, h'.blockedBy, h'.status]
    exact h.shape
  · rw [h'.blockedBy]
    exact h.blockedBy
  · rw [h'.status]
    exact h.status

end Moved

section

variable [Runtime]

theorem closeOrReopen_other {prev : Option Status} {status : Status} {m : Nat} (hm : m ≠ n)
    {it : Item} (h : tx.items[m]? = some it) :
    ∃ it', (tx.closeOrReopen n prev status).items[m]? = some it' ∧ it.Rests it' := by
  have hnear : Near tx (tx.closeOrReopen n prev status) := near_closeOrReopen
  obtain ⟨it', hit', -⟩ := hnear.forth m it h
  refine ⟨it', hit', ?_⟩
  unfold closeOrReopen at hit'
  simp only at hit'
  split at hit'
  · obtain ⟨old, hold, hr⟩ := close_other hm hit'
    obtain rfl := Option.some.inj (h.symm.trans hold)
    exact hr
  · split at hit'
    · obtain ⟨old, hold, hr⟩ := reopen_other hm hit'
      obtain rfl := Option.some.inj (h.symm.trans hold)
      exact hr
    · obtain rfl := Option.some.inj (h.symm.trans hit')
      exact .refl it

/-- Telling the dependents puts them in order, and changes no other item. -/
theorem tellDependents_ok {w : Write} {before it cur : Item} {title : String}
    (hc : Holds ⟨P, ∅, {w.n}, {m | it.status = .done ∧ before.status ≠ .done ∧
      Edge tx.items m w.n}⟩ tx)
    (hcur : tx.items[w.n]? = some cur) (hstatus : cur.status = it.status)
    (hnew : w.creating = true → before.status = .open)
    (hdone : before.status = .done → ∀ a, ¬ Edge tx.items a w.n)
    (heased : it.status = .done → before.status ≠ .done → Eased P w.n tx) :
    Consistent P (tx.tellDependents w.n title (w.prevStatus before) it.status) ∧
      (∀ (m : Nat) (mt : Item), tx.items[m]? = some mt → ∃ mt' : Item,
        (tx.tellDependents w.n title (w.prevStatus before) it.status).items[m]? = some mt' ∧
          Moved (it.status = .done ∧ before.status ≠ .done) w.n mt mt') ∧
      ∀ (m : Nat) (mt' : Item),
        (tx.tellDependents w.n title (w.prevStatus before) it.status).items[m]? = some mt' →
          ∃ mt : Item, tx.items[m]? = some mt := by
  have hprev : w.prevStatus before ≠ some .done ↔ before.status ≠ .done := by
    unfold Write.prevStatus
    split
    · next hcreating => simp [hnew hcreating]
    · simp
  unfold tellDependents
  rw [prevStatus_closed hnew]
  split
  · next hcas =>
    have hboth := hprev.mp hcas.2
    refine ⟨cascade_holds ?_ (heased hcas.1 hboth), ?_, ?_⟩
    · refine ⟨hc.numbered, hc.sound, hc.parked, hc.marked, hc.edges, hc.acyclic, ?_⟩
      exact fun m hm => hc.dropped m fun h => hm h.2.2
    · intro m mt hmt
      obtain ⟨mt', hmt', ⟨hb, hl⟩ | ⟨-, rfl⟩⟩ := @cascade_forth tx w.n _ title m mt hmt
      · exact ⟨mt', hmt', .of_lightened ⟨hcas.1, hboth⟩ hb hl⟩
      · exact ⟨mt', hmt', .of_rests (.refl mt')⟩
    · intro m mt' hmt'
      obtain ⟨mt, hmt, -⟩ := cascade_back hmt'
      exact ⟨mt, hmt⟩
  · next hcas =>
    have hnot : ¬ (it.status = .done ∧ before.status ≠ .done) :=
      fun h => hcas ⟨h.1, hprev.mpr h.2⟩
    have hcons : Consistent P tx := by
      refine ⟨hc.numbered, hc.sound, hc.parked, hc.marked, ?_, hc.acyclic, ?_⟩
      · intro a b hab
        obtain ⟨bt, hbt, hopen⟩ := hc.edges a b hab
        refine ⟨bt, hbt, fun hd => ?_⟩
        have hb : b = w.n := hopen hd
        subst hb
        obtain rfl := Option.some.inj (hcur.symm.trans hbt)
        refine absurd hab (hdone ?_ a)
        by_contra hne
        exact hnot ⟨hstatus ▸ hd, hne⟩
      · exact fun m _ => hc.dropped m fun h => hnot ⟨h.1, h.2.1⟩
    split
    · next hflag =>
      refine ⟨flagDependents_holds hcons ?_, ?_, ?_⟩
      · exact isDropped_iff.mpr ⟨cur, hcur, hstatus.trans hflag.1⟩
      · intro m mt hmt
        obtain ⟨mt', hmt', hf⟩ := flagged_forth (n := w.n) hmt
        exact ⟨mt', hmt', .of_flagged hf⟩
      · intro m mt' hmt'
        obtain ⟨mt, hmt, -⟩ := flagged_back hmt'
        exact ⟨mt, hmt⟩
    · exact ⟨hcons, fun m mt hmt => ⟨mt, hmt, .of_rests (.refl mt)⟩, fun m mt hmt => ⟨mt, hmt⟩⟩

/-! ## The write -/

/-- The write sets its item done. -/
def Write.closes (w : Write) : Prop := w.fields.lookup "status" = some (.str "done")

/-- What a write that is not refused makes of the board. -/
structure Applied (P : Set Nat) (w : Write) (before : Item) (tx tx' : BoardTx) : Prop where
  consistent : Consistent P tx'
  self : ∃ it' : Item, tx'.items[w.n]? = some it' ∧ (w.closes → it'.status = .done) ∧
    (suggested ∈ it'.openFlags →
      suggested ∈ before.openFlags ∧ (w.creating = true ∨ it'.status = before.status))
  others : ∀ m ≠ w.n, ∀ it : Item, tx.items[m]? = some it → ∃ it' : Item,
    tx'.items[m]? = some it' ∧ Moved w.closes w.n it it'
  back : ∀ (m : Nat) (it' : Item), tx'.items[m]? = some it' → ∃ it : Item, tx.items[m]? = some it

/-- A suggestion does not outlive the status it was made at. -/
theorem settleSuggestion_gone {w : Write} {before it it' : Item}
    (h : (tx.settleSuggestion w before it).items[w.n]? = some it')
    (hflag : suggested ∈ it'.openFlags) : w.creating = true ∨ it.status = before.status := by
  unfold settleSuggestion at h
  split at h
  · exact absurd hflag (resolveFlag_gone h)
  · next hsame =>
    by_contra hne
    rw [not_or] at hne
    exact hsame ⟨hne.2, by simpa using hne.1⟩

theorem commit_ok {w : Write} {before : Item} {s : Settled}
    (hc : Consistent (insert w.n P) tx) (hbefore : tx.items[w.n]? = some before)
    (hs : SettleSpec w tx before s) (hnew : w.creating = true → before.status = .open)
    (heased : w.closes → Eased (insert w.n P) w.n tx) (h : commit w before s = .ok tx') :
    Applied P w before tx tx' := by
  unfold commit at h
  obtain ⟨tx3, hdeps, h⟩ := except_bind_ok.mp h
  obtain rfl := except_pure_ok.mp h
  have hholds := recheck_ok hc hbefore hs hdeps
  have hq3 : Quiet (s.tx.setItem w.n s.it) tx3 := quiet_announce.trans (quiet_recheckDeps hdeps)
  obtain ⟨tx4, htx4⟩ : ∃ tx4, tx3.settleSuggestion w before s.it = tx4 := ⟨_, rfl⟩
  have hq34 : Quiet tx3 tx4 := htx4 ▸ quiet_settleSuggestion
  obtain ⟨tx5, htx5⟩ : ∃ tx5, tx4.closeOrReopen w.n (w.prevStatus before) s.it.status = tx5 :=
    ⟨_, rfl⟩
  simp only [htx4, htx5]
  -- The item itself, up to the dependents.
  have hstored : (s.tx.setItem w.n s.it).items[w.n]? = some s.it := by
    rw [setItem_items, if_pos rfl]
  obtain ⟨cur4, hcur4, hr4⟩ := (hq3.trans hq34).forth w.n s.it hstored
  have hholds4 : Holds ⟨P, {w.n}, {w.n}, {m | Lost before s.it ∧ Edge tx4.items m w.n}⟩ tx4 := by
    have hall := hholds.quiet hq34
    refine ⟨hall.numbered, hall.sound, hall.parked, hall.marked, hall.edges, hall.acyclic, ?_⟩
    exact fun m hm => hall.dropped m fun h => hm ⟨h.1, (Near.of_quiet hq34).edge.mpr h.2⟩
  have hholds5 := closeOrReopen_ok hholds4 hcur4 hr4 hs.closedAt hs.openFlags
    (hc.marked w.n (fun h => h) before hbefore) hnew
  rw [htx5] at hholds5
  have hnear5 : Near tx4 tx5 := htx5 ▸ near_closeOrReopen
  obtain ⟨cur5, hcur5, hr5⟩ := hnear5.forth w.n cur4 hcur4
  have hstatus5 : cur5.status = s.it.status := hr5.status.trans hr4.status
  -- Another item, up to the dependents.
  have hothers : ∀ m ≠ w.n, ∀ it : Item, tx.items[m]? = some it → ∃ it' : Item,
      tx5.items[m]? = some it' ∧ it.Rests it' := by
    intro m hm it hit
    have hset : (s.tx.setItem w.n s.it).items[m]? = some it := by
      rw [setItem_items, if_neg hm, hs.marked.items]
      exact hit
    obtain ⟨it4, hit4, h4⟩ := (hq3.trans hq34).forth m it hset
    obtain ⟨it5, hit5, h5⟩ := @closeOrReopen_other tx4 w.n _ (w.prevStatus before)
      s.it.status m hm it4 hit4
    exact ⟨it5, htx5 ▸ hit5, h4.trans h5⟩
  have hback : ∀ m ≠ w.n, ∀ it5 : Item, tx5.items[m]? = some it5 → ∃ it : Item,
      tx.items[m]? = some it ∧ it.Rests it5 := by
    intro m hm it5 hit5
    obtain ⟨it4, hit4, -⟩ := hnear5.back m it5 hit5
    obtain ⟨it, hit, -⟩ := (hq3.trans hq34).back m it4 hit4
    rw [setItem_items, if_neg hm, hs.marked.items] at hit
    obtain ⟨it5', hit5', hr⟩ := hothers m hm it hit
    obtain rfl := Option.some.inj (hit5.symm.trans hit5')
    exact ⟨it, hit, hr⟩
  have hapart : ∀ a, Edge tx5.items a w.n → a ≠ w.n := by
    rintro a ha rfl
    exact hholds5.apart ha
  have hcloses : s.it.status = .done ∧ before.status ≠ .done → w.closes := by
    rintro ⟨hd, hne⟩
    refine (hs.done hd).resolve_right ?_
    unfold Write.prevStatus
    split
    · simp
    · exact fun h => hne (Option.some.inj h)
  have hbefore5 : Holds ⟨P, ∅, {w.n}, {m | s.it.status = .done ∧ before.status ≠ .done ∧
      Edge tx5.items m w.n}⟩ tx5 := by
    refine ⟨hholds5.numbered, hholds5.sound, hholds5.parked, hholds5.marked, hholds5.edges,
      hholds5.acyclic, ?_⟩
    exact fun m hm => hholds5.dropped m fun h => hm ⟨h.1, h.2.1, hnear5.edge.mpr h.2.2⟩
  have hdone : before.status = .done → ∀ a, ¬ Edge tx5.items a w.n := by
    intro hd a ha
    have hne := hapart a ha
    obtain ⟨it5, hit5, hb⟩ := ha
    obtain ⟨it, hit, hr⟩ := hback a hne it5 hit5
    obtain ⟨bt, hbt, hopen⟩ := hc.edges a w.n ⟨it, hit, hr.blockedBy ▸ hb⟩
    obtain rfl := Option.some.inj (hbefore.symm.trans hbt)
    exact hopen hd
  have heased5 : s.it.status = .done → before.status ≠ .done → Eased P w.n tx5 := by
    intro hd hne m hm it5 hit5 hb hfreed
    have hmn : m ≠ w.n := hapart m ⟨it5, hit5, hb⟩
    obtain ⟨it, hit, hr⟩ := hback m hmn it5 hit5
    rw [hr.checkBackAt]
    refine heased (hcloses ⟨hd, hne⟩) m (fun h => h.elim hmn hm) it hit (hr.blockedBy ▸ hb) ?_
    exact ⟨hr.status ▸ hfreed.1, hr.blockedOn ▸ hfreed.2.1, hr.blockedBy ▸ hfreed.2.2⟩
  obtain ⟨htell, hmoved, hbefore6⟩ := @tellDependents_ok tx5 P _ w before s.it cur5 s.it.title
    hbefore5 hcur5 hstatus5 hnew hdone heased5
  have hfinish : ∀ tx : BoardTx, Quiet tx (tx.finish w before) := fun _ => quiet_finish
  refine ⟨htell.quiet quiet_finish, ?_, ?_, ?_⟩
  · obtain ⟨cur6, hcur6, hm6⟩ := hmoved w.n cur5 hcur5
    obtain ⟨cur7, hcur7, hr7⟩ := (hfinish _).forth w.n cur6 hcur6
    have hstatus6 : cur6.status = cur5.status := by
      rcases hm6.status with hst | ⟨-, hb, -⟩
      · exact hst
      · exact absurd rfl (hapart w.n ⟨cur5, hcur5, hb⟩)
    have hstatus7 : cur7.status = s.it.status := by
      rw [hr7.status, hstatus6, hstatus5]
    refine ⟨cur7, hcur7, fun hw => hstatus7.trans (hs.closing hw), fun hflag => ?_⟩
    have hflag4 := hr5.flags _ (hm6.suggestion (hr7.flags _ hflag))
    rw [hstatus7]
    refine ⟨hs.openFlags ▸ hr4.flags _ hflag4, ?_⟩
    exact settleSuggestion_gone (htx4.symm ▸ hcur4) hflag4
  · intro m hm it hit
    obtain ⟨it5, hit5, hr⟩ := hothers m hm it hit
    obtain ⟨it6, hit6, hm6⟩ := hmoved m it5 hit5
    obtain ⟨it7, hit7, hr7⟩ := (hfinish _).forth m it6 hit6
    exact ⟨it7, hit7, ((Moved.after hr hm6).before hr7).imp hcloses⟩
  · intro m it7 hit7
    obtain ⟨it6, hit6, -⟩ := (hfinish _).back m it7 hit7
    obtain ⟨it5, hit5⟩ := hbefore6 m it6 hit6
    by_cases hm : m = w.n
    · exact ⟨before, hm ▸ hbefore⟩
    · obtain ⟨it, hit, -⟩ := hback m hm it5 hit5
      exact ⟨it, hit⟩

/-- A write that is not refused keeps a board consistent. -/
theorem apply_ok {w : Write} {before : Item} (hc : Consistent (insert w.n P) tx)
    (hbefore : tx.items[w.n]? = some before) (hnew : w.creating = true → before.status = .open)
    (heased : w.closes → Eased (insert w.n P) w.n tx) (h : tx.apply w = .ok tx') :
    Applied P w before tx tx' := by
  unfold BoardTx.apply BoardTx.item at h
  rw [hbefore] at h
  obtain ⟨it, hit, h⟩ := except_bind_ok.mp h
  obtain rfl := Except.ok.inj hit
  obtain ⟨s, hsettle, h⟩ := except_bind_ok.mp h
  exact commit_ok hc hbefore (settle_ok hsettle) hnew heased h

end

end Board
