import Mathlib
import ClaudeManager.Board.Charts

/-!
# Owners

Who a write may leave as the owner of an item, and what its entry does to the permits.

* `newHolders_pid`, `newHolders_length`, `newHolders_owners` — the holders come from the item and
  the write, and no second owner comes by itself
* `Tidy.apply` — one write keeps the permits with the owner
-/

namespace Board

open Json Python Containers Program BoardTx

variable {w : Write} {it : Item} {h : Holder} {l l' : List Holder}

/-! ## Where the holders come from -/

/-- One more mention of a holder. -/
def mention (seen : List Holder) (h : Holder) : List Holder :=
  if seen.any (fun p => p.pid = h.pid) then
    seen.map fun p => if p.pid = h.pid then p.withEvidence h else p
  else seen ++ [h]

theorem dedupeHolders_eq : dedupeHolders l = l.foldl mention [] := rfl

theorem dedupe_mem : ∀ {l s : List Holder} {h : Holder},
    h ∈ l.foldl mention s → ∃ h' ∈ s ++ l, h'.pid = h.pid
  | [], s, h, hmem => ⟨h, by simpa using hmem, rfl⟩
  | k :: l, s, h, hmem => by
    rw [List.foldl_cons] at hmem
    obtain ⟨h', hh', hpid⟩ := dedupe_mem hmem
    rcases List.mem_append.mp hh' with hh' | hh'
    · unfold mention at hh'
      split at hh'
      · obtain ⟨p, hp, rfl⟩ := List.mem_map.mp hh'
        refine ⟨p, List.mem_append_left _ hp, ?_⟩
        rw [← hpid]
        split
        · unfold Holder.withEvidence
          split <;> rfl
        · rfl
      · rcases List.mem_append.mp hh' with hh' | hh'
        · exact ⟨h', List.mem_append_left _ hh', hpid⟩
        · obtain rfl := List.mem_singleton.mp hh'
          exact ⟨h', List.mem_append_right _ List.mem_cons_self, hpid⟩
    · exact ⟨h', List.mem_append_right _ (List.mem_cons_of_mem k hh'), hpid⟩

theorem keepEvidence_pid : (keepEvidence l h).pid = h.pid := by
  unfold keepEvidence
  split <;> rfl

theorem keepEvidence_role : (keepEvidence l h).role = h.role := by
  unfold keepEvidence
  split <;> rfl

theorem transferOwner_mem {owner : Holder} (hmem : h ∈ transferOwner owner l l') :
    h.pid = owner.pid ∨ ∃ h' ∈ l', h'.pid = h.pid := by
  unfold transferOwner at hmem
  simp only at hmem
  rcases List.mem_cons.mp hmem with rfl | hmem
  · left
    have hexisting : ((l.find? (·.pid = owner.pid)).getD owner).pid = owner.pid := by
      cases hfind : l.find? (·.pid = owner.pid) with
      | none => rfl
      | some old => simpa using List.find?_some hfind
    split <;> exact hexisting
  · obtain ⟨h', hh', rfl⟩ := List.mem_map.mp hmem
    refine .inr ⟨h', (List.mem_filter.mp hh').1, ?_⟩
    split <;> rfl

theorem assignRoles_mem {prevPids : List String} {replaced : Bool} :
    ∀ {l : List Holder} {hasOwner : Bool} {h : Holder},
      h ∈ assignRoles prevPids replaced hasOwner l → ∃ h' ∈ l, h'.pid = h.pid
  | [], _, _, hmem => by cases hmem
  | k :: l, hasOwner, h, hmem => by
    unfold assignRoles at hmem
    split at hmem
    all_goals
      rcases List.mem_cons.mp hmem with rfl | hmem
      · exact ⟨_, List.mem_cons_self, rfl⟩
      · obtain ⟨h', hh', hpid⟩ := assignRoles_mem hmem
        exact ⟨h', List.mem_cons_of_mem _ hh', hpid⟩

theorem succeed_mem {prevOwner : Option String} (hmem : h ∈ succeed prevOwner l) :
    ∃ h' ∈ l, h'.pid = h.pid := by
  unfold succeed at hmem
  split at hmem
  · split at hmem <;> obtain rfl := List.mem_singleton.mp hmem
    · exact ⟨_, List.mem_singleton.mpr rfl, rfl⟩
    · exact ⟨_, List.mem_singleton.mpr rfl, rfl⟩
  · exact ⟨h, hmem, rfl⟩

/-- The holders a write names, or leaves where it names none. -/
def Write.named (w : Write) (it : Item) : List Holder :=
  (w.holders.getD it.holders ++ w.add) ++ w.owner.toList

/-- Every new holder was named by the write or held the item. -/
theorem newHolders_pid (hmem : h ∈ newHolders w it) : ∃ h' ∈ w.named it, h'.pid = h.pid := by
  unfold newHolders at hmem
  obtain ⟨h1, h1mem, h1pid⟩ := succeed_mem hmem
  obtain ⟨h2, h2mem, h2pid⟩ := assignRoles_mem h1mem
  obtain ⟨h3, h3mem, rfl⟩ := List.mem_map.mp h2mem
  rw [keepEvidence_pid] at h2pid
  have hkept : ∀ h ∈ (dedupeHolders (w.holders.getD it.holders ++ w.add)).filter
      (fun h => h.pid ∉ w.remove), ∃ h' ∈ w.named it, h'.pid = h.pid := by
    intro h hh
    obtain ⟨h', hh', hpid⟩ := dedupe_mem (List.mem_filter.mp hh).1
    exact ⟨h', List.mem_append_left _ (by simpa using hh'), hpid⟩
  rw [← h1pid, ← h2pid]
  cases howner : w.owner with
  | none =>
    simp only [howner] at h3mem
    exact hkept h3 h3mem
  | some owner =>
    simp only [howner] at h3mem
    rcases transferOwner_mem h3mem with hpid | ⟨h', hh', hpid⟩
    · refine ⟨owner, List.mem_append_right _ ?_, hpid.symm⟩
      rw [howner]
      exact List.mem_singleton.mpr rfl
    · obtain ⟨h'', hh'', hpid'⟩ := hkept h' hh'
      exact ⟨h'', hh'', hpid'.trans hpid⟩

/-! ## How many there are -/

theorem dedupe_length : ∀ {l s : List Holder},
    (l.foldl mention s).length ≤ s.length + l.length
  | [], s => by simp
  | k :: l, s => by
    rw [List.foldl_cons]
    refine (dedupe_length (l := l)).trans ?_
    unfold mention
    split
    · rw [List.length_map, List.length_cons]
      omega
    · rw [List.length_append, List.length_cons, List.length_cons, List.length_nil]
      omega

theorem assignRoles_length {prevPids : List String} {replaced : Bool} :
    ∀ {l : List Holder} {hasOwner : Bool},
      (assignRoles prevPids replaced hasOwner l).length = l.length
  | [], _ => rfl
  | k :: l, hasOwner => by
    unfold assignRoles
    split <;> rw [List.length_cons, List.length_cons, assignRoles_length]

theorem succeed_length {prevOwner : Option String} :
    (succeed prevOwner l).length = l.length := by
  unfold succeed
  split
  · split <;> rfl
  · rfl

theorem newHolders_length (howner : w.owner = none) :
    (newHolders w it).length ≤ (w.holders.getD it.holders ++ w.add).length := by
  unfold newHolders
  rw [succeed_length, assignRoles_length, List.length_map]
  simp only [howner]
  refine (List.length_filter_le _ _).trans ?_
  have hdedupe := dedupe_length (l := w.holders.getD it.holders ++ w.add) (s := [])
  rw [List.length_nil, Nat.zero_add] at hdedupe
  exact hdedupe

/-! ## How many own -/

theorem ownerPids_length_le : (ownerPids l).length ≤ l.length := by
  unfold ownerPids
  rw [List.length_map]
  exact List.length_filter_le _ _

theorem ownerPids_append : ownerPids (l ++ l') = ownerPids l ++ ownerPids l' := by
  unfold ownerPids
  rw [List.filter_append, List.map_append]

theorem ownerPids_cons_length : (ownerPids (h :: l)).length =
    (if h.owns then 1 else 0) + (ownerPids l).length := by
  unfold ownerPids
  rw [List.filter_cons]
  split
  · rw [List.map_cons, List.length_cons]
    omega
  · omega

theorem ownerPids_map_length {f : Holder → Holder} (hf : ∀ h, (f h).role = h.role) :
    (ownerPids (l.map f)).length = (ownerPids l).length := by
  induction l with
  | nil => rfl
  | cons h l ih =>
    have howns : (f h).owns = h.owns := by
      unfold Holder.owns
      rw [hf]
    rw [List.map_cons, ownerPids_cons_length, ownerPids_cons_length, ih, howns]

theorem dedupe_owners : ∀ {l s : List Holder},
    (ownerPids (l.foldl mention s)).length ≤ (ownerPids s).length + (ownerPids l).length
  | [], s => by simp
  | k :: l, s => by
    rw [List.foldl_cons]
    refine (dedupe_owners (l := l)).trans ?_
    unfold mention
    split
    · rw [ownerPids_map_length, ownerPids_cons_length]
      · omega
      · intro p
        split
        · unfold Holder.withEvidence
          split <;> rfl
        · rfl
    · rw [ownerPids_append, List.length_append, ownerPids_cons_length, ownerPids_cons_length]
      have hnil : (ownerPids ([] : List Holder)).length = 0 := rfl
      omega

/-- Holders that were there keep their roles. -/
theorem assignRoles_kept {prevPids : List String} :
    ∀ {l : List Holder} {hasOwner : Bool}, (∀ h ∈ l, h.pid ∈ prevPids) →
      assignRoles prevPids false hasOwner l = l
  | [], _, _ => rfl
  | k :: l, hasOwner, hall => by
    unfold assignRoles
    rw [if_pos (.inr ⟨hall k List.mem_cons_self, rfl⟩),
      assignRoles_kept fun h hh => hall h (List.mem_cons_of_mem k hh)]

theorem succeed_owners {prevOwner : Option String} (hl : (ownerPids l).length ≤ 1) :
    (ownerPids (succeed prevOwner l)).length ≤ 1 := by
  unfold succeed
  split
  · split <;> exact ownerPids_length_le
  · exact hl

/-- A write that names no holders leaves no second owner. -/
theorem newHolders_owners (hw : w.holders = none ∧ w.add = [] ∧ w.owner = none)
    (hnew : w.creating = false) (hone : (ownerPids it.holders).length ≤ 1) :
    (ownerPids (newHolders w it)).length ≤ 1 := by
  obtain ⟨hholders, hadd, howner⟩ := hw
  unfold newHolders
  simp only [hholders, hadd, howner, Option.getD_none, List.append_nil, Option.isSome_none]
  refine succeed_owners ?_
  rw [assignRoles_kept]
  · rw [ownerPids_map_length fun h => keepEvidence_role]
    have hsub : List.Sublist
        (ownerPids ((dedupeHolders it.holders).filter fun h => h.pid ∉ w.remove))
        (ownerPids (dedupeHolders it.holders)) :=
      (List.filter_sublist.filter _).map _
    refine hsub.length_le.trans ?_
    have hdedupe := dedupe_owners (l := it.holders) (s := [])
    have hnil : (ownerPids ([] : List Holder)).length = 0 := rfl
    rw [dedupeHolders_eq]
    omega
  · intro h hh
    obtain ⟨h', hh', rfl⟩ := List.mem_map.mp hh
    obtain ⟨h'', hh'', hpid⟩ := dedupe_mem (List.mem_filter.mp hh').1
    rw [keepEvidence_pid, ← hpid]
    unfold Write.prevPids
    rw [if_neg (by simp [hnew])]
    exact List.mem_map_of_mem (by simpa using hh'')

/-! ## What an entry does -/

variable {σ : Seating} {orchestrator : Option String} {P : Permits String String} {n : Nat}
  {s : Seat} {task : String} {old : Option String} {new : Option Holder}

theorem move_untasked (hs : σ.seat n = some s) (ht : s.taskId = none) :
    σ.move orchestrator P (n, old, new) = P := by
  unfold Seating.move Seating.handover
  simp [hs, ht]

theorem move_linked (hs : σ.seat n = some s) (hl : s.Links task) :
    σ.move orchestrator P (n, old, new) = P.hand ⟨task, old.filter (· ≠ ""),
      if s.closed = false ∧ σ.mayGrant orchestrator old = true then new.map Holder.pid
      else none⟩ := by
  unfold Seating.move Seating.handover
  simp [hs, hl.1, hl.2]

/-- An owner has a pid. -/
theorem ownerOf_filter (hnamed : ∀ h ∈ l, h.pid ≠ "") :
    (ownerOf l).filter (· ≠ "") = ownerOf l := by
  unfold ownerOf
  cases hfind : l.find? Holder.owns with
  | none => rfl
  | some h =>
    rw [Option.map_some, Option.filter_some, if_pos]
    simpa using hnamed h (List.mem_of_find?_eq_some hfind)

/-- Whoever may launch owns the item. -/
theorem within_ownerOf {S : Set String} (hw : Permits.Within S s.launcher) :
    Permits.Within S (ownerOf s.holders) := by
  intro p hp
  have hlauncher := hw p hp
  unfold Seat.launcher at hlauncher
  split at hlauncher
  · cases hlauncher
  · exact hlauncher

theorem isSet_iff {o : Option String} : isSet o = true ↔ ∃ t, o = some t ∧ t ≠ "" := by
  cases o <;> simp [isSet]

/-- The write reopens its item and leaves it the owner it had. -/
def Write.Restores (w : Write) (it : Item) : Prop :=
  it.status.closed = true ∧
    (∃ t : Status, w.fields.lookup "status" = some (.str t.name) ∧ t.closed = false) ∧
    ownerOf (newHolders w it) = ownerOf it.holders ∧ ownerOf it.holders ≠ none

section

variable {before after : Item} {P' : Permits String String}

/-- What the entry of a write makes of the permits of its task. -/
theorem entry_passed (hs : σ.seat w.n = some after.seat) (hl : after.seat.Links task)
    (hnamed : ∀ h ∈ before.holders, h.pid ≠ "") (hnew : w.creating = false)
    (hw : Permits.Within (P task) before.seat.launcher)
    (hP' : (ownerEntry w.n (ownerOf before.holders) (w.prevStatus before) after).foldl
      (σ.move orchestrator) P = P') :
    Permits.Within (P' task) after.seat.launcher ∧
      ((∀ old, σ.mayGrant orchestrator old = true) →
        Permits.Exact (P task) before.seat.launcher →
        ¬ (before.status.closed = true ∧ after.status.closed = false ∧
          ownerOf after.holders = ownerOf before.holders ∧ ownerOf before.holders ≠ none) →
        Permits.Exact (P' task) after.seat.launcher) := by
  have howner := within_ownerOf hw
  have hfilter := ownerOf_filter hnamed
  unfold ownerEntry at hP'
  simp only at hP'
  split at hP'
  · -- The item closes, and its owner's grant goes.
    next hclose =>
    have hlauncher : after.seat.launcher = none := if_pos hclose.1
    rw [List.foldl_cons, List.foldl_nil, move_linked hs hl, hfilter] at hP'
    subst hP'
    rw [Permits.hand_self, hlauncher]
    have hexact : Permits.Exact (Permits.passed (P task) (ownerOf before.holders) none) none :=
      Permits.Within.passed_exact howner
    simp only [Option.map_none, ite_self]
    exact ⟨hexact.within, fun _ _ _ => hexact⟩
  · next hnotclose =>
    split at hP'
    · -- The owner of an open item changes.
      next hchange =>
      have hopen : after.seat.closed = false := hchange.2
      have hlauncher : after.seat.launcher = (after.holders.find? Holder.owns).map Holder.pid :=
        if_neg (by simp [hopen])
      rw [List.foldl_cons, List.foldl_nil, move_linked hs hl, hfilter] at hP'
      subst hP'
      rw [Permits.hand_self, hlauncher]
      refine ⟨Permits.Within.passed howner ?_, fun hmay _ _ => ?_⟩
      · simp only
        split
        · exact .inr rfl
        · exact .inl rfl
      · simp only [hopen, hmay, and_self, if_true]
        exact Permits.Within.passed_exact howner
    · -- No entry: the item was closed or unowned, or keeps its owner.
      next hsame =>
      rw [List.foldl_nil] at hP'
      subst hP'
      by_cases hclosed : after.status.closed = true
      · have hlauncher : after.seat.launcher = none := if_pos hclosed
        have hempty : P task = ∅ := by
          have hnone : before.seat.launcher = none ∨ ownerOf before.holders = none := by
            by_cases hset : isSet (ownerOf before.holders) = true
            · have hst : some after.status = w.prevStatus before := by
                by_contra hne
                exact hnotclose ⟨hclosed, hset, hne⟩
              unfold Write.prevStatus at hst
              rw [if_neg (by simp [hnew])] at hst
              refine .inl (if_pos ?_)
              show before.status.closed = true
              rw [← Option.some.inj hst]
              exact hclosed
            · right
              cases hprev : ownerOf before.holders with
              | none => rfl
              | some p =>
                rw [hprev] at hset hfilter
                rw [Option.filter_some] at hfilter
                refine absurd (isSet_iff.mpr ⟨p, rfl, fun hp => ?_⟩) hset
                rw [hp] at hfilter
                cases hfilter
          rcases hnone with hnone | hnone
          · exact (hnone ▸ hw).eq_empty
          · exact (hnone ▸ howner).eq_empty
        rw [hempty, hlauncher]
        exact ⟨Permits.within_empty, fun _ _ _ => Permits.exact_empty⟩
      · have hopen : after.status.closed = false := by simpa using hclosed
        have hlauncher : after.seat.launcher = ownerOf after.holders := if_neg hclosed
        have hkept : ownerOf after.holders = ownerOf before.holders := by
          by_contra hne
          exact hsame ⟨hne, hopen⟩
        rw [hlauncher, hkept]
        refine ⟨howner, fun _ hexact hnot => ?_⟩
        by_cases hwas : before.status.closed = true
        · have hnone : ownerOf before.holders = none := by
            by_contra hne
            exact hnot ⟨hwas, hopen, rfl, hne⟩
          have hb : before.seat.launcher = none := if_pos hwas
          rw [hnone]
          rwa [hb] at hexact
        · have hb : before.seat.launcher = ownerOf before.holders := if_neg hwas
          rwa [hb] at hexact

/-- An entry touches the permits of its own task. -/
theorem entry_other {changes : List OwnerChange} (hs : σ.seat n = some s)
    (hall : ∀ c ∈ changes, c.1 = n) (hl : s.taskId ≠ some task) :
    changes.foldl (σ.move orchestrator) P task = P task := by
  induction changes generalizing P with
  | nil => rfl
  | cons c cs ih =>
    rw [List.foldl_cons, ih fun c hc => hall c (List.mem_cons_of_mem _ hc)]
    obtain ⟨m, old, new⟩ := c
    obtain rfl : m = n := hall _ List.mem_cons_self
    unfold Seating.move Seating.handover
    cases ht : s.taskId with
    | none => simp [hs, ht]
    | some key =>
      simp only [hs, ht, Option.bind_some, Option.map_some]
      exact Permits.hand_other fun he => hl (he ▸ ht)

theorem ownerEntry_n {prevOwner : Option String} {prev : Option Status} {c : OwnerChange}
    (hc : c ∈ ownerEntry n prevOwner prev it) : c.1 = n := by
  unfold ownerEntry at hc
  simp only at hc
  split at hc
  · rw [List.mem_singleton.mp hc]
  · split at hc
    · rw [List.mem_singleton.mp hc]
    · cases hc

end

/-! ## One write -/

section

variable {e : Prop} {C : Chart} {ref : String} {tx tx' : BoardTx} {before after : Item}

theorem ownerOf_congr (hsame : ownerPids l = ownerPids l') : ownerOf l = ownerOf l' := by
  rw [ownerOf_eq_head?, ownerOf_eq_head?, hsame]

/-- The permits after a write: its entry comes last. -/
theorem Reseats.moved (hr : Reseats w tx tx' before after)
    (hfirst : ∀ c ∈ tx.ownerChanges, c.1 ≠ w.n) : tx'.seating.moved orchestrator P =
      (ownerEntry w.n (ownerOf before.holders) (w.prevStatus before) after).foldl
        (tx'.seating.move orchestrator) (tx.seating.moved orchestrator P) := by
  have hsplit : tx'.seating.moved orchestrator P =
      (ownerEntry w.n (ownerOf before.holders) (w.prevStatus before) after).foldl
        (tx'.seating.move orchestrator)
        (({ tx'.seating with ownerChanges := tx.ownerChanges } : Seating).moved orchestrator P) := by
    unfold Seating.moved
    have hchanges : tx'.seating.ownerChanges = tx.ownerChanges ++
        ownerEntry w.n (ownerOf before.holders) (w.prevStatus before) after := by rw [hr.seating]
    rw [hchanges, List.foldl_append]
    rfl
  have hearlier : ({ tx'.seating with ownerChanges := tx.ownerChanges } : Seating).moved
      orchestrator P = tx.seating.moved orchestrator P := by
    refine Seating.moved_congr rfl ?_ ?_
    · intro c hc
      show tx'.seating.seat c.1 = tx.seating.seat c.1
      rw [hr.seating]
      exact Function.update_of_ne (hfirst c hc) ..
    · intro old
      unfold Seating.mayGrant
      rw [hr.seating]
  rw [hsplit, hearlier]

/-- One write keeps the permits with the owner, as long as it leaves one owner and does not bring
him back. -/
theorem Tidy.apply (h : Tidy e (C.on ref tx.seating.seat) (tx.seating.moved orchestrator P))
    (hr : Reseats w tx tx' before after) (hfirst : ∀ c ∈ tx.ownerChanges, c.1 ≠ w.n)
    (hcreating : w.creating = true → before.taskId = none)
    (hnamed : ∀ h ∈ newHolders w before, h.pid ≠ "")
    (hone : ∀ task, before.seat.Links task → (ownerPids (newHolders w before)).length ≤ 1)
    (hmay : e → ∀ old, tx.seating.mayGrant orchestrator old = true)
    (hrestores : e → ∀ task, before.seat.Links task → ¬ w.Restores before) :
    Tidy e (C.on ref tx'.seating.seat) (tx'.seating.moved orchestrator P) := by
  have hbefore : tx.seating.seat w.n = some before.seat := congrArg (Option.map Item.seat) hr.mem
  have hin : C.on ref tx.seating.seat ref w.n = some before.seat := by
    rw [Chart.on_self]
    exact hbefore
  have hafter : tx'.seating.seat w.n = some after.seat := by
    rw [hr.seating]
    exact Function.update_self ..
  have hchart : C.on ref tx'.seating.seat = (C.on ref tx.seating.seat).put ref w.n after.seat := by
    rw [Chart.put_on, hr.seating]
  have hlinks : ∀ task, after.seat.Links task ↔ before.seat.Links task := by
    intro task
    unfold Seat.Links Item.seat
    rw [hr.taskId, hr.linkArchivedAt]
  have hmayeq : ∀ old, tx'.seating.mayGrant orchestrator old =
      tx.seating.mayGrant orchestrator old := by
    intro old
    unfold Seating.mayGrant
    rw [hr.seating]
  rw [hchart, hr.moved hfirst]
  have hproper := h.proper hin
  have hentry : ∀ task, after.seat.Links task → _ := fun task hl =>
    entry_passed (P := tx.seating.moved orchestrator P) (σ := tx'.seating) hafter hl hproper.named
      (by
        by_contra hnew
        have hnone := hcreating (by simpa using hnew)
        have hsome := ((hlinks task).mp hl).1
        exact absurd (hsome.symm.trans hnone) (by simp))
      (h.within hin ((hlinks task).mp hl))
      (show (ownerEntry w.n (ownerOf before.holders) (w.prevStatus before) after).foldl
        (tx'.seating.move orchestrator) _ = _ from rfl)
  refine h.move ⟨⟨?_, ?_⟩, ?_, ?_, ?_, ?_, ?_⟩
  · intro k hk
    have hmem : k ∈ after.holders := hk
    rcases hr.holders with hold | hnewh
    · rw [hold] at hmem
      exact hproper.named k hmem
    · rw [hnewh] at hmem
      exact hnamed k hmem
  · intro task hl
    show (ownerPids after.holders).length ≤ 1
    rw [hr.owner]
    exact hone task ((hlinks task).mp hl)
  · intro task hl b m s hs hls
    exact h.alone hs hin hls ((hlinks task).mp hl)
  · exact fun task hl => (hentry task hl).1
  · intro he task hl
    refine (hentry task hl).2 (fun old => (hmayeq old).trans (hmay he old))
      (h.exact he hin ((hlinks task).mp hl)) ?_
    rintro ⟨hclosed, hopen, hkept, hne⟩
    have hnew : w.creating = false := by
      by_contra hnew
      have hnone := hcreating (by simpa using hnew)
      have hsome := ((hlinks task).mp hl).1
      exact absurd (hsome.symm.trans hnone) (by simp)
    refine hrestores he task ((hlinks task).mp hl) ⟨hclosed, hr.opens hnew hclosed hopen, ?_, hne⟩
    rw [← ownerOf_congr hr.owner]
    exact hkept
  · intro task hl hold
    have hnot : after.seat.taskId ≠ some task := by
      intro ht
      have hnotlink : before.linkArchivedAt ≠ none := by
        intro hlink
        exact hold before.seat hin ⟨hr.taskId.symm.trans ht, hlink⟩
      have hnew : w.creating = true := by
        by_contra hnew
        exact hnotlink (hr.writable (by simpa using hnew))
      have hnone : after.taskId = none := hr.taskId.trans (hcreating hnew)
      exact absurd (hnone.symm.trans ht) (by simp)
    exact entry_other hafter (fun c hc => ownerEntry_n hc) hnot
  · intro task hl s hs hls
    obtain rfl := Option.some.inj (hin.symm.trans hs)
    exact absurd ((hlinks task).mpr hls) hl

end

end Board
