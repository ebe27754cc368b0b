import ClaudeManager.Messaging.MonitorScans
import ClaudeManager.Program.Failures
import ClaudeManager.Program.Runs

/-!
# What an operation changes of a watch

Every change that an operation makes, recorded, and what becomes of one watch by it.

* `Change` — the changes, as the operations make them
* `Fate` — what a change makes of one watch
* `Change.fate` — every watch that is there has one of these fates
-/

namespace ClaudeManager

open Json Containers Program

/-! ## Watches of a participant -/

variable {w u : Watching} {actor id : String} {m m' : Monitor}

theorem monitor_eq {v : Watchers} {a i : String} :
    v.monitor a i = (entryD v.personal a {}).monitors[i]? := by
  unfold Watchers.monitor entryD
  cases v.personal[a]? with
  | none => exact Std.ExtTreeMap.getElem?_empty.symm
  | some p => rfl

theorem monitor_update {v : Watchers} {f : Map Monitor → Map Monitor} {a i : String} :
    (v.update actor f).monitor a i =
      if a = actor then (f (entryD v.personal actor {}).monitors)[i]? else v.monitor a i := by
  rw [monitor_eq, Watchers.update, entryD_upsert]
  by_cases ha : a = actor
  · rw [if_pos ha, if_pos ha]
  · rw [if_neg ha, if_neg ha, monitor_eq]

theorem monitor_update_insert {v : Watchers} {a i : String} :
    (v.update actor fun monitors => monitors.insert id m).monitor a i =
      if a = actor ∧ i = id then some m else v.monitor a i := by
  rw [monitor_update]
  by_cases ha : a = actor
  · subst ha
    rw [if_pos rfl, getElem?_insert_map, monitor_eq]
    by_cases hi : i = id <;> simp [hi]
  · simp [ha]

theorem monitor_update_map {v : Watchers} {f : Monitor → Monitor} {a i : String} :
    (v.update actor fun monitors => monitors.map fun _ m => f m).monitor a i =
      if a = actor then (v.monitor a i).map f else v.monitor a i := by
  rw [monitor_update]
  by_cases ha : a = actor
  · subst ha
    rw [if_pos rfl, if_pos rfl, Std.ExtTreeMap.getElem?_map, monitor_eq]
  · rw [if_neg ha, if_neg ha]

theorem savePersonal_ok {f : Map Monitor → Map Monitor} {a : PUnit} :
    savePersonal actor f w = .ok a u ↔
      w.savable = .ok ⟨⟩ ∧ u = { w with watchers := w.watchers.update actor f } := by
  unfold savePersonal
  rw [bind_query_ok]
  constructor
  · rintro ⟨_, hsavable, h⟩
    exact ⟨hsavable, (modify_ok.mp h).symm⟩
  · rintro ⟨hsavable, rfl⟩
    exact ⟨_, hsavable, modify_ok.mpr rfl⟩

/-- Where some entries are put into a table, the others stay. -/
theorem getElem?_insertAll {α : Type} {l : List (String × α)} {k : String} {v : α} :
    ∀ {m : Map α}, (l.foldl (fun m e => m.insert e.1 e.2) m)[k]? = some v →
      (k, v) ∈ l ∨ (∀ v', (k, v') ∉ l) ∧ m[k]? = some v := by
  induction l with
  | nil => exact fun h => .inr ⟨fun _ => List.not_mem_nil, h⟩
  | cons e l ih =>
    intro m h
    rcases ih (by rwa [List.foldl_cons] at h) with hl | ⟨hl, h⟩
    · exact .inl (List.mem_cons_of_mem e hl)
    · rw [getElem?_insert_map] at h
      by_cases hk : k = e.1
      · rw [if_pos hk] at h
        obtain rfl := Option.some.inj h
        exact .inl (hk ▸ List.mem_cons_self)
      · rw [if_neg hk] at h
        refine .inr ⟨fun v' hv' => ?_, h⟩
        rcases List.mem_cons.mp hv' with rfl | hv'
        · exact hk rfl
        · exact hl v' hv'

theorem getElem?_insertAll_none {α : Type} {l : List (String × α)} {k : String} :
    ∀ {m : Map α}, (l.foldl (fun m e => m.insert e.1 e.2) m)[k]? = none → m[k]? = none := by
  induction l with
  | nil => exact fun h => h
  | cons e l ih =>
    intro m h
    have hrest := ih (by rwa [List.foldl_cons] at h)
    rw [getElem?_insert_map] at hrest
    split at hrest
    · cases hrest
    · exact hrest

/-! ## Operations -/

theorem scanEvents_same {s : Store} {v : Watchers} {es : List Published} {b : Bool} :
    ∀ {m : Monitor}, s.scanEvents v actor es m = .ok (b, m') → SameWatch m m' := by
  cases b with
  | true =>
    intro m h
    obtain ⟨-, -, -, -, -, -, -, rfl⟩ := scanEvents_matched h
    exact ⟨rfl, rfl, rfl, rfl, rfl, rfl, rfl⟩
  | false =>
    intro m h
    obtain ⟨-, rfl⟩ := scanEvents_through h
    exact ⟨rfl, rfl, rfl, rfl, rfl, rfl, rfl⟩

section

variable [Instants] {clock : Int}

theorem scanMonitor_same {s : Store} {v : Watchers} {b : Bool}
    (h : s.scanMonitor v actor m clock = .ok (b, m')) : SameWatch m m' := by
  unfold Store.scanMonitor at h
  split at h
  · cases h
    exact .refl
  · obtain ⟨expired, -, h⟩ := except_bind_ok.mp h
    obtain ⟨found, hfound, h⟩ := except_bind_ok.mp h
    have hsame := scanEvents_same hfound
    split at h
    · cases h
      exact ⟨hsame.id, hsame.taskSubscription, hsame.scope, hsame.mode, hsame.includeSelf, hsame.expiresAt,
        hsame.start⟩
    · cases h
      exact ⟨hsame.id, hsame.taskSubscription, hsame.scope, hsame.mode, hsame.includeSelf, hsame.expiresAt,
        hsame.start⟩

/-- What a scan saves of a watch. -/
theorem advanceOwner_ok {owner : String} {a : PUnit} (h : advanceOwner clock owner w = .ok a u) :
    u.store = w.store ∧ u.receipts = w.receipts
      ∧ (∀ a i, a ≠ owner → u.monitor a i = w.monitor a i)
      ∧ (∀ i, u.monitor owner i = none → w.monitor owner i = none)
      ∧ ∀ i m', u.monitor owner i = some m' → ∃ m b m'', w.monitor owner i = some m
        ∧ w.store.scanMonitor w.watchers owner m clock = .ok (b, m'')
        ∧ m' = if b then m'' else m := by
  obtain ⟨updates, hupdates, h⟩ := bind_query_ok.mp h
  obtain ⟨results, hresults, hupdates⟩ := except_bind_ok.mp hupdates
  obtain rfl := except_pure_ok.mp hupdates
  -- one watch, by what was found of it
  have hentry : ∀ i m, w.monitor owner i = some m → ∃ b m'',
      w.store.scanMonitor w.watchers owner m clock = .ok (b, m'')
        ∧ (if b then some (i, m'') else none) ∈ results := by
    intro i m hm
    have hmem : (i, m) ∈ (entryD w.watchers.personal owner {}).monitors.toList := by
      rw [mem_toList_map, ← monitor_eq]
      exact hm
    obtain ⟨result, hresult, hf⟩ := mapM_ok_mem hresults _ hmem
    unfold Watching.scanned at hf
    by_cases hactive : m.state = .active
    · rw [if_neg (by simpa using hactive)] at hf
      obtain ⟨⟨b, m''⟩, hscan, hf⟩ := except_bind_ok.mp hf
      obtain rfl := except_pure_ok.mp hf
      exact ⟨b, m'', hscan, hresult⟩
    · rw [if_pos hactive] at hf
      obtain rfl := except_pure_ok.mp hf
      refine ⟨false, m, ?_, hresult⟩
      unfold Store.scanMonitor
      rw [if_pos (.inl hactive)]
      rfl
  have hupdated : ∀ i m'', (i, m'') ∈ results.filterMap id → ∃ m, w.monitor owner i = some m
      ∧ w.store.scanMonitor w.watchers owner m clock = .ok (true, m'') := by
    intro i m'' hmem
    obtain ⟨result, hresult, hid⟩ := List.mem_filterMap.mp hmem
    obtain rfl : result = some (i, m'') := hid
    obtain ⟨⟨j, m⟩, hj, hf⟩ := mapM_mem hresults _ hresult
    unfold Watching.scanned at hf
    split at hf
    · cases hf
    · obtain ⟨⟨b, found⟩, hscan, hf⟩ := except_bind_ok.mp hf
      cases b with
      | false => cases hf
      | true =>
        cases hf
        refine ⟨m, ?_, hscan⟩
        rw [mem_toList_map, ← monitor_eq] at hj
        exact hj
  obtain ⟨hsave, hnone⟩ := onlyIf_ok.mp h
  by_cases hempty : results.filterMap id = []
  · obtain rfl := hnone (not_not.mpr hempty)
    refine ⟨rfl, rfl, fun _ _ _ => rfl, fun _ h => h, fun i m' hm' => ?_⟩
    obtain ⟨b, m'', hscan, hresult⟩ := hentry i m' hm'
    cases b with
    | false => exact ⟨m', false, m'', hm', hscan, rfl⟩
    | true =>
      have : (i, m'') ∈ results.filterMap id := List.mem_filterMap.mpr ⟨_, hresult, rfl⟩
      rw [hempty] at this
      exact (List.not_mem_nil this).elim
  · obtain ⟨-, rfl⟩ := savePersonal_ok.mp (hsave hempty)
    refine ⟨rfl, rfl, fun a i ha => monitor_update.trans (if_neg ha), fun i hi => ?_, fun i m' hm' => ?_⟩
    · have hinsert := monitor_update.symm.trans hi
      rw [if_pos rfl] at hinsert
      exact monitor_eq.trans (getElem?_insertAll_none hinsert)
    · have hinsert := monitor_update.symm.trans hm'
      rw [if_pos rfl] at hinsert
      rcases getElem?_insertAll hinsert with hmem | ⟨hother, hold⟩
      · obtain ⟨m, hm, hscan⟩ := hupdated i m' hmem
        exact ⟨m, true, m', hm, hscan, rfl⟩
      · rw [← monitor_eq] at hold
        obtain ⟨b, m'', hscan, hresult⟩ := hentry i m' hold
        cases b with
        | false => exact ⟨m', false, m'', hold, hscan, rfl⟩
        | true =>
          have : (i, m'') ∈ results.filterMap id := List.mem_filterMap.mpr ⟨_, hresult, rfl⟩
          exact absurd this (hother m'')

end

section

variable [Externals]

theorem getResults_ok {p : Value} {page : ResultPage} (h : getResults actor m p w = .ok page u) :
    w.store.monitorResults w.watchers actor m p = .ok page
      ∧ u = { w with
        receipts := upsert w.receipts actor ∅ fun digests => digests.insert (receiptDigest page.receipt) } := by
  obtain ⟨page', hpage, h⟩ := bind_query_ok.mp h
  obtain ⟨_, -, h⟩ := bind_query_ok.mp h
  rw [bind_modify_ok] at h
  obtain ⟨rfl, rfl⟩ := pure_ok.mp h
  exact ⟨hpage, rfl⟩

theorem ackResults_ok {receipt : Value} {a : PUnit} (h : ackResults actor id m receipt w = .ok a u) :
    ∃ through, w.acknowledged actor id m receipt = .ok through
      ∧ u.store = w.store ∧ u.receipts = w.receipts
      ∧ ∀ a i, u.monitor a i =
        if a = actor ∧ i = id then some { m with acknowledged := through } else w.monitor a i := by
  obtain ⟨through, hthrough, h⟩ := bind_query_ok.mp h
  obtain ⟨_, -, h⟩ := bind_query_ok.mp h
  rw [bind_modify_ok] at h
  obtain ⟨-, rfl⟩ := savePersonal_ok.mp h
  refine ⟨through, hthrough, rfl, rfl, fun a i => monitor_update_insert.trans ?_⟩
  have hpersonal : (w.acknowledgeTask actor { m with acknowledged := through }).personal =
      w.watchers.personal := by
    unfold Watching.acknowledgeTask
    split <;> rfl
  simp only [Watchers.monitor, Watching.monitor, hpersonal]

end

theorem closeMonitor_ok {state : MonitorState} {a : PUnit} (h : closeMonitor actor id m state w = .ok a u) :
    u.store = w.store ∧ u.receipts = w.receipts
      ∧ ∀ a i, u.monitor a i =
        if a = actor ∧ i = id then some (m.close state w.store.position) else w.monitor a i := by
  obtain ⟨-, rfl⟩ := savePersonal_ok.mp (bind_get_ok.mp h)
  exact ⟨rfl, rfl, fun a i => monitor_update_insert⟩

/-- A watch after its participant cancelled all of its own. -/
def Monitor.cancelled (m : Monitor) (position : Nat) : Monitor :=
  if m.cancellable then m.close .cancelled position else m

theorem cancelAll_ok {a : PUnit} (h : cancelAll actor w = .ok a u) :
    u.store = w.store ∧ u.receipts = w.receipts
      ∧ ∀ a i, u.monitor a i =
        if a = actor then (w.monitor a i).map (·.cancelled w.store.position) else w.monitor a i := by
  obtain ⟨-, rfl⟩ := savePersonal_ok.mp (bind_get_ok.mp h)
  exact ⟨rfl, rfl, fun a i => monitor_update_map⟩

theorem pastReads_same {marked : StrSet} (h : w.readOn actor marked m = false) :
    w.pastReads actor marked m = m := by
  unfold Watching.readOn at h
  unfold Watching.pastReads at *
  split at h
  · rename_i hopen
    rw [if_pos hopen]
    rw [decide_eq_false_iff_not, not_lt] at h
    have hle := Nat.le_antisymm h (Nat.le_max_left _ _)
    simp only at hle
    simp only [hle]
  · rename_i hclosed
    rw [if_neg hclosed]

theorem advanceMonitorAcksPastReads_ok {marked : StrSet} {a : PUnit}
    (h : advanceMonitorAcksPastReads actor marked w = .ok a u) :
    u.store = w.store ∧ u.receipts = w.receipts
      ∧ ∀ a i, u.monitor a i =
        if a = actor then (w.monitor a i).map (w.pastReads actor marked) else w.monitor a i := by
  unfold advanceMonitorAcksPastReads at h
  rw [bind_get_ok] at h
  obtain ⟨hsave, hnone⟩ := onlyIf_ok.mp h
  by_cases hread : ((entryD w.watchers.personal actor {}).monitors.toList.any
      fun e => w.readOn actor marked e.2) = true
  · obtain ⟨-, rfl⟩ := savePersonal_ok.mp (hsave hread)
    exact ⟨rfl, rfl, fun a i => monitor_update_map⟩
  · obtain rfl := hnone hread
    refine ⟨rfl, rfl, fun a i => ?_⟩
    by_cases ha : a = actor
    · subst ha
      rw [if_pos rfl]
      cases hm : w.monitor a i with
      | none => rfl
      | some m =>
        rw [Option.map_some, pastReads_same]
        have hmem : (i, m) ∈ (entryD w.watchers.personal a {}).monitors.toList := by
          rw [mem_toList_map, ← monitor_eq]
          exact hm
        simp only [List.any_eq_true, not_exists, not_and] at hread
        simpa using hread (i, m) hmem
    · rw [if_neg ha]

theorem Monitor.Kept.refl : m.Kept m := ⟨.refl, rfl, rfl, rfl, .inl ⟨rfl, rfl⟩⟩

theorem Monitor.Kept.close {position : Nat} {state : MonitorState}
    (h : state = .cancelled ∨ state = .dismissed) : m.Kept (m.close state position) :=
  ⟨⟨rfl, rfl, rfl, rfl, rfl, rfl, rfl⟩, rfl, rfl, rfl, .inr h⟩

theorem Monitor.Kept.cancelled {position : Nat} : m.Kept (m.cancelled position) := by
  unfold Monitor.cancelled
  split
  · exact .close (.inl rfl)
  · exact .refl

theorem cancelled_acknowledged {position : Nat} :
    (m.cancelled position).acknowledged = m.acknowledged := by
  unfold Monitor.cancelled
  split <;> rfl

/-! ## Changes -/

/-- What is recorded of a change. -/
inductive Happening
  | registered (w : Watching) (actor id : String) (m : Monitor) (clock : Int)
  | scanned (w : Watching) (owner : String) (clock : Int)
  | shown (w : Watching) (actor id : String) (m : Monitor) (page : ResultPage)
  | acked (actor id : String) (receipt : Value)
  | read (w : Watching) (actor : String) (marked : StrSet)

/-- Whatever else is kept beside the personal watches changed, those of tasks included. -/
structure Watching.Elsewhere (w u : Watching) : Prop where
  store : u.store = w.store
  receipts : u.receipts = w.receipts
  personal : ∀ actor id m, m.taskSubscription = none →
    (u.monitor actor id = some m ↔ w.monitor actor id = some m)
  ids : ∀ actor id m, u.monitor actor id = some m → m.id = id
  stays : ∀ actor id, u.monitor actor id = none → w.monitor actor id = none

section

variable [Externals] [Instants]

/-- A change that an operation makes, and what is recorded of it. -/
inductive Change : Watching → List Happening → Watching → Prop
  | arrives {w : Watching} {t : Store} :
    Extended w.store t → Indexed t → Change w [] { w with store := t }
  | elsewhere {w u : Watching} : w.Elsewhere u → Change w [] u
  | registers {w : Watching} {actor id : String} {r : WatchRequest} {start : Nat} {clock : Int} {b : Bool}
    {m : Monitor} :
    w.monitor actor id = none → w.store.startPosition r.start = .ok start →
    w.store.scanMonitor w.watchers actor (r.monitor id start) clock = .ok (b, m) →
    Change w [.registered w actor id (r.monitor id start) clock]
      { w with watchers := w.watchers.update actor fun monitors => monitors.insert id m }
  | scans {w u : Watching} {owner : String} {clock : Int} :
    advanceOwner clock owner w = .ok ⟨⟩ u → Change w [.scanned w owner clock] u
  | shows {w u : Watching} {actor id : String} {m : Monitor} {p : Value} {page : ResultPage} :
    w.monitor actor id = some m → getResults actor m p w = .ok page u →
    Change w [.shown w actor id m page] u
  | acks {w u : Watching} {actor id : String} {m : Monitor} {receipt : Value} :
    w.monitor actor id = some m → ackResults actor id m receipt w = .ok ⟨⟩ u →
    Change w [.acked actor id receipt] u
  | closes {w u : Watching} {actor id : String} {m : Monitor} {state : MonitorState} :
    w.monitor actor id = some m → state = .cancelled ∨ state = .dismissed →
    closeMonitor actor id m state w = .ok ⟨⟩ u → Change w [] u
  | cancels {w u : Watching} {actor : String} : cancelAll actor w = .ok ⟨⟩ u → Change w [] u
  | reads {w u : Watching} {actor : String} {marked : StrSet} :
    advanceMonitorAcksPastReads actor marked w = .ok ⟨⟩ u → Change w [.read w actor marked] u

/-- What a change makes of a watch that is there after it. -/
inductive Fate (w : Watching) (new : List Happening) (u : Watching) (actor id : String) : Monitor → Prop
  | registered {r : WatchRequest} {start : Nat} {clock : Int} {b : Bool} {m : Monitor} :
    w.monitor actor id = none → w.store.startPosition r.start = .ok start →
    w.store.scanMonitor w.watchers actor (r.monitor id start) clock = .ok (b, m) →
    new = [.registered w actor id (r.monitor id start) clock] → u.store = w.store → Fate w new u actor id m
  | scanned {m m' : Monitor} {b : Bool} {clock : Int} :
    w.monitor actor id = some m → w.store.scanMonitor w.watchers actor m clock = .ok (b, m') →
    new = [.scanned w actor clock] → u.store = w.store → Fate w new u actor id (if b then m' else m)
  | kept {m m' : Monitor} :
    w.monitor actor id = some m → m.Kept m' → m'.acknowledged = m.acknowledged →
    (∀ w' m₀ clock, .registered w' actor id m₀ clock ∉ new) → (∀ w' clock, .scanned w' actor clock ∉ new) →
    Fate w new u actor id m'
  | acked {m : Monitor} {receipt : Value} {through : Nat} :
    w.monitor actor id = some m → w.acknowledged actor id m receipt = .ok through →
    new = [.acked actor id receipt] → u.store = w.store →
    Fate w new u actor id { m with acknowledged := through }
  | read {m : Monitor} {marked : StrSet} :
    w.monitor actor id = some m → new = [.read w actor marked] → u.store = w.store →
    Fate w new u actor id (w.pastReads actor marked m)
  | task {m : Monitor} : m.taskSubscription ≠ none → m.id = id → Fate w new u actor id m

/-- A watch that the change does not touch. -/
theorem Fate.untouched {new : List Happening} (hm : w.monitor actor id = some m)
    (hregistered : ∀ w' m₀ clock, Happening.registered w' actor id m₀ clock ∉ new)
    (hscanned : ∀ w' clock, Happening.scanned w' actor clock ∉ new) : Fate w new u actor id m :=
  .kept hm .refl rfl hregistered hscanned

/-- Every watch has one of these fates. -/
theorem Change.fate {new : List Happening} (h : Change w new u) (hm : u.monitor actor id = some m) :
    Fate w new u actor id m := by
  cases h with
  | arrives => exact .untouched hm (fun _ _ _ => List.not_mem_nil) fun _ _ => List.not_mem_nil
  | elsewhere h =>
    by_cases htask : m.taskSubscription = none
    · exact .untouched ((h.personal actor id m htask).mp hm) (fun _ _ _ => List.not_mem_nil)
        fun _ _ => List.not_mem_nil
    · exact .task htask (h.ids actor id m hm)
  | @registers a i r start clock b found hnew hstart hscan =>
    have hmonitor := monitor_update_insert.symm.trans hm
    by_cases hsame : actor = a ∧ id = i
    · obtain ⟨rfl, rfl⟩ := hsame
      rw [if_pos ⟨rfl, rfl⟩] at hmonitor
      obtain rfl := Option.some.inj hmonitor
      exact .registered hnew hstart hscan rfl rfl
    · rw [if_neg hsame] at hmonitor
      refine .untouched hmonitor (fun _ _ _ hmem => ?_) fun _ _ hmem => ?_
      · obtain ⟨-, rfl, rfl, -⟩ := by simpa using hmem
        exact hsame ⟨rfl, rfl⟩
      · simp at hmem
  | @scans _ owner clock h =>
    obtain ⟨hstore, -, hother, -, hown⟩ := advanceOwner_ok h
    by_cases howner : actor = owner
    · subst howner
      obtain ⟨m₁, b, m₂, hm₁, hscan, rfl⟩ := hown id m hm
      exact .scanned hm₁ hscan rfl hstore
    · rw [hother actor id howner] at hm
      refine .untouched hm (fun _ _ _ hmem => by simp at hmem) fun _ _ hmem => ?_
      obtain ⟨-, rfl, -⟩ := by simpa using hmem
      exact howner rfl
  | shows _ h =>
    obtain ⟨-, rfl⟩ := getResults_ok h
    exact .untouched hm (fun _ _ _ hmem => by simp at hmem) fun _ _ hmem => by simp at hmem
  | @acks _ a i m₁ receipt hm₁ h =>
    obtain ⟨through, hthrough, hstore, -, hmonitor⟩ := ackResults_ok h
    rw [hmonitor] at hm
    by_cases hsame : actor = a ∧ id = i
    · obtain ⟨rfl, rfl⟩ := hsame
      rw [if_pos ⟨rfl, rfl⟩] at hm
      obtain rfl := Option.some.inj hm
      exact .acked hm₁ hthrough rfl hstore
    · rw [if_neg hsame] at hm
      exact .untouched hm (fun _ _ _ hmem => by simp at hmem) fun _ _ hmem => by simp at hmem
  | @closes _ a i m₁ state hm₁ hstate h =>
    obtain ⟨-, -, hmonitor⟩ := closeMonitor_ok h
    rw [hmonitor] at hm
    by_cases hsame : actor = a ∧ id = i
    · obtain ⟨rfl, rfl⟩ := hsame
      rw [if_pos ⟨rfl, rfl⟩] at hm
      obtain rfl := Option.some.inj hm
      exact .kept hm₁ (.close hstate) rfl (fun _ _ _ => List.not_mem_nil) fun _ _ => List.not_mem_nil
    · rw [if_neg hsame] at hm
      exact .untouched hm (fun _ _ _ => List.not_mem_nil) fun _ _ => List.not_mem_nil
  | @cancels _ a h =>
    obtain ⟨-, -, hmonitor⟩ := cancelAll_ok h
    rw [hmonitor] at hm
    by_cases hsame : actor = a
    · rw [if_pos hsame, Option.map_eq_some_iff] at hm
      obtain ⟨m₁, hm₁, rfl⟩ := hm
      exact .kept hm₁ .cancelled cancelled_acknowledged (fun _ _ _ => List.not_mem_nil)
        fun _ _ => List.not_mem_nil
    · rw [if_neg hsame] at hm
      exact .untouched hm (fun _ _ _ => List.not_mem_nil) fun _ _ => List.not_mem_nil
  | @reads _ a marked h =>
    obtain ⟨hstore, -, hmonitor⟩ := advanceMonitorAcksPastReads_ok h
    rw [hmonitor] at hm
    by_cases hsame : actor = a
    · subst hsame
      rw [if_pos rfl, Option.map_eq_some_iff] at hm
      obtain ⟨m₁, hm₁, rfl⟩ := hm
      exact .read hm₁ rfl hstore
    · rw [if_neg hsame] at hm
      exact .untouched hm (fun _ _ _ hmem => by simp at hmem) fun _ _ hmem => by simp at hmem

/-- The store is the same or a later one. -/
theorem Change.extended {new : List Happening} (h : Change w new u) :
    Extended w.store u.store ∧ (Indexed w.store → Indexed u.store) := by
  have hsame : u.store = w.store → Extended w.store u.store ∧ (Indexed w.store → Indexed u.store) :=
    fun heq => by
      rw [heq]
      exact ⟨Std.Refl.refl (r := Extended) w.store, fun h => h⟩
  cases h with
  | arrives hstore ht => exact ⟨hstore, fun _ => ht⟩
  | elsewhere h => exact hsame h.store
  | registers => exact hsame rfl
  | scans h => exact hsame (advanceOwner_ok h).1
  | shows _ h =>
    obtain ⟨-, rfl⟩ := getResults_ok h
    exact hsame rfl
  | acks _ h =>
    obtain ⟨-, -, hstore, -⟩ := ackResults_ok h
    exact hsame hstore
  | closes _ _ h => exact hsame (closeMonitor_ok h).1
  | cancels h => exact hsame (cancelAll_ok h).1
  | reads h => exact hsame (advanceMonitorAcksPastReads_ok h).1

/-- No watch goes away. -/
theorem Change.stays {new : List Happening} (h : Change w new u) (hu : u.monitor actor id = none) :
    w.monitor actor id = none := by
  cases h with
  | arrives => exact hu
  | elsewhere h => exact h.stays actor id hu
  | registers =>
    have hmonitor := monitor_update_insert.symm.trans hu
    split at hmonitor
    · cases hmonitor
    · exact hmonitor
  | @scans _ owner clock h =>
    obtain ⟨-, -, hother, hnone, -⟩ := advanceOwner_ok h
    by_cases howner : actor = owner
    · subst howner
      exact hnone id hu
    · exact (hother actor id howner).symm.trans hu
  | shows _ h =>
    obtain ⟨-, rfl⟩ := getResults_ok h
    exact hu
  | acks _ h =>
    obtain ⟨_, -, -, -, hmonitor⟩ := ackResults_ok h
    rw [hmonitor] at hu
    split at hu
    · cases hu
    · exact hu
  | closes _ _ h =>
    rw [(closeMonitor_ok h).2.2] at hu
    split at hu
    · cases hu
    · exact hu
  | cancels h =>
    rw [(cancelAll_ok h).2.2] at hu
    split at hu
    · exact Option.map_eq_none_iff.mp hu
    · exact hu
  | reads h =>
    rw [(advanceMonitorAcksPastReads_ok h).2.2] at hu
    split at hu
    · exact Option.map_eq_none_iff.mp hu
    · exact hu

/-- A receipt that is remembered was remembered, or is the one of the page just shown. -/
theorem Change.receipts {new : List Happening} (h : Change w new u) {a d : String}
    (hd : d ∈ entryD u.receipts a ∅) : d ∈ entryD w.receipts a ∅
      ∨ ∃ i m page, Happening.shown w a i m page ∈ new ∧ d = receiptDigest page.receipt := by
  cases h with
  | arrives | registers => exact .inl hd
  | elsewhere h => exact .inl (h.receipts ▸ hd)
  | scans h => exact .inl ((advanceOwner_ok h).2.1 ▸ hd)
  | acks _ h =>
    obtain ⟨-, -, -, hreceipts, -⟩ := ackResults_ok h
    exact .inl (hreceipts ▸ hd)
  | closes _ _ h => exact .inl ((closeMonitor_ok h).2.1 ▸ hd)
  | cancels h => exact .inl ((cancelAll_ok h).2.1 ▸ hd)
  | reads h => exact .inl ((advanceMonitorAcksPastReads_ok h).2.1 ▸ hd)
  | @shows _ actor id m p page hm h =>
    obtain ⟨-, rfl⟩ := getResults_ok h
    rw [entryD_upsert] at hd
    by_cases ha : a = actor
    · subst ha
      rw [if_pos rfl] at hd
      refine (mem_insert_set.mp hd).symm.imp_right fun hd => ⟨id, m, page, List.mem_cons_self, hd⟩
    · rw [if_neg ha] at hd
      exact .inl hd

/-- A page that was just shown. -/
theorem Change.shown {new : List Happening} (h : Change w new u) {w' : Watching} {page : ResultPage}
    (hmem : Happening.shown w' actor id m page ∈ new) :
    w' = w ∧ w.monitor actor id = some m ∧ u.store = w.store ∧ u.monitor actor id = some m
      ∧ ∃ p, w.store.monitorResults w.watchers actor m p = .ok page := by
  cases h with
  | shows hm h =>
    obtain ⟨hpage, rfl⟩ := getResults_ok h
    obtain ⟨rfl, rfl, rfl, rfl, rfl⟩ := by simpa using hmem
    exact ⟨rfl, hm, rfl, hm, _, hpage⟩
  | _ => simp at hmem

end

end ClaudeManager
