import ClaudeManager.Messaging.MonitorChanges
import ClaudeManager.Messaging.ExportPages

/-!
# Watches over whole runs

What holds of every watch of a participant, whatever calls and arrivals came before.

* `History` — the changes so far, and what was recorded of them
* `Served` — what any calls make of the watches, each of them a history
* `monitor_counts_exact` — hits are what matched when a scan first came past it
* `monitor_acks_handled` — what is acknowledged was shown or read
-/

namespace ClaudeManager

open Json Containers Program

variable {w u : Watching} {actor id : String} {m m' : Monitor} {log new : List Happening}

/-! ## What was recorded of a watch -/

/-- The scans of a watch since it was registered, newest first. -/
def scansOf (actor id : String) : List Happening → List (Watching × Int)
  | [] => []
  | .registered w a i _ clock :: older =>
    if a = actor ∧ i = id then if w.store.scans actor then [(w, clock)] else []
    else scansOf actor id older
  | .scanned w owner clock :: older =>
    if owner = actor ∧ w.store.scans actor then (w, clock) :: scansOf actor id older
    else scansOf actor id older
  | _ :: older => scansOf actor id older

theorem scansOf_append (hregistered : ∀ w' m₀ clock, Happening.registered w' actor id m₀ clock ∉ new)
    (hscanned : ∀ w' clock, Happening.scanned w' actor clock ∉ new) :
    scansOf actor id (new ++ log) = scansOf actor id log := by
  induction new with
  | nil => rfl
  | cons x new ih =>
    have hrest := ih (fun w' m₀ clock h => hregistered w' m₀ clock (List.mem_cons_of_mem x h))
      fun w' clock h => hscanned w' clock (List.mem_cons_of_mem x h)
    rw [List.cons_append]
    cases x with
    | registered w' a i m₀ clock =>
      have hother : ¬ (a = actor ∧ i = id) := by
        rintro ⟨rfl, rfl⟩
        exact hregistered w' m₀ clock List.mem_cons_self
      rw [scansOf, if_neg hother, hrest]
    | scanned w' owner clock =>
      have hother : ¬ (owner = actor ∧ w'.store.scans actor = true) := by
        rintro ⟨rfl, -⟩
        exact hscanned w' clock List.mem_cons_self
      rw [scansOf, if_neg hother, hrest]
    | shown | acked | read => exact hrest

theorem startPosition_le {s : Store} {start : Option Value} {n : Nat} (h : s.startPosition start = .ok n) :
    n ≤ s.position := by
  unfold Store.startPosition at h
  split at h
  · unfold Store.checkPosition at h
    obtain ⟨_, -, h⟩ := except_bind_ok.mp h
    rw [except_okOr_ok, Option.filter_eq_some_iff] at h
    simpa using h.2
  · exact (except_pure_ok.mp h).symm.le

theorem pastReads_kept {marked : StrSet} : m.Kept (w.pastReads actor marked m) := by
  unfold Watching.pastReads
  split
  · exact ⟨⟨rfl, rfl, rfl, rfl, rfl, rfl, rfl⟩, rfl, rfl, rfl, .inl ⟨rfl, rfl⟩⟩
  · exact .refl

theorem acknowledged_kept {through : Nat} : m.Kept { m with acknowledged := through } :=
  ⟨⟨rfl, rfl, rfl, rfl, rfl, rfl, rfl⟩, rfl, rfl, rfl, .inl ⟨rfl, rfl⟩⟩

section

variable [Instants]

/-- The counters of a watch agree with what was recorded of its scans. -/
def Counted (log : List Happening) (w : Watching) (actor id : String) (m m₀ : Monitor) : Prop :=
  (∃ w₀ clock, .registered w₀ actor id m₀ clock ∈ log) ∧ Exact actor m₀ (scansOf actor id log) w.store m

theorem Counted.of_store {m₀ : Monitor} (h : Counted log w actor id m m₀) (hstore : u.store = w.store) :
    Counted log u actor id m m₀ := ⟨h.1, hstore ▸ h.2⟩

/-- What a change leaves settled of a watch that was there. -/
theorem Counted.fate {m₀ : Monitor} (h : Counted log w actor id m m₀) (hs : Indexed w.store)
    (hu : Indexed u.store) (hext : Extended w.store u.store) (hkept : m.Kept m')
    (hregistered : ∀ w' m₀ clock, Happening.registered w' actor id m₀ clock ∉ new)
    (hscanned : ∀ w' clock, Happening.scanned w' actor clock ∉ new) :
    Counted (new ++ log) u actor id m' m₀
      ∧ Settled actor m₀ (scansOf actor id log) w.store m (scansOf actor id (new ++ log)) u.store m' := by
  obtain ⟨⟨w₀, clock, hmem⟩, hexact⟩ := h
  have hsettled := Settled.grow hexact hs hu hext
  unfold Counted
  rw [scansOf_append hregistered hscanned]
  refine ⟨⟨⟨w₀, clock, List.mem_append_right _ hmem⟩, (hexact.grow hs hu hext).keep hkept⟩, ?_⟩
  unfold Settled counted at *
  rw [hkept.scanned]
  exact hsettled

theorem Counted.scan {m₀ : Monitor} {clock : Int} {b : Bool} (h : Counted log w actor id m m₀)
    (hs : Indexed w.store) (hpersonal : m.taskSubscription = none)
    (hscan : w.store.scanMonitor w.watchers actor m clock = .ok (b, m')) :
    Counted (.scanned w actor clock :: log) w actor id m' m₀
      ∧ (b = false → m' = m)
      ∧ Settled actor m₀ (scansOf actor id log) w.store m
          (scansOf actor id (.scanned w actor clock :: log)) w.store m' := by
  obtain ⟨⟨w₀, clock₀, hmem⟩, hexact⟩ := h
  obtain ⟨hcases, hsame⟩ := scanMonitor_cases hpersonal (fun hactive => (hexact.active hactive).1) hscan
  unfold Counted
  by_cases hscans : w.store.scans actor = true
  · have hlog : scansOf actor id (.scanned w actor clock :: log) = (w, clock) :: scansOf actor id log := by
      rw [scansOf, if_pos ⟨rfl, hscans⟩]
    obtain ⟨hexact', hsettled⟩ := hexact.scan hs hscans hcases
    rw [hlog]
    exact ⟨⟨⟨w₀, clock₀, List.mem_cons_of_mem _ hmem⟩, hexact'⟩, hsame, hsettled⟩
  · have hlog : scansOf actor id (.scanned w actor clock :: log) = scansOf actor id log := by
      rw [scansOf, if_neg fun h => hscans h.2]
    rw [hlog]
    cases hcases with
    | skipped =>
      exact ⟨⟨⟨w₀, clock₀, List.mem_cons_of_mem _ hmem⟩, hexact⟩, hsame, Nat.le_refl _, fun _ h _ => h⟩
    | closed _ h => exact absurd h hscans
    | through _ h => exact absurd h hscans

theorem Counted.register {r : WatchRequest} {start : Nat} {clock : Int} {b : Bool} (hs : Indexed w.store)
    (hstart : w.store.startPosition r.start = .ok start)
    (hscan : w.store.scanMonitor w.watchers actor (r.monitor id start) clock = .ok (b, m)) :
    Counted (.registered w actor id (r.monitor id start) clock :: log) w actor id m (r.monitor id start) := by
  have hasked : Exact actor (r.monitor id start) [] w.store (r.monitor id start) :=
    .asked (startPosition_le hstart)
  obtain ⟨hcases, -⟩ := scanMonitor_cases rfl (fun _ => rfl) hscan
  refine ⟨⟨w, clock, List.mem_cons_self⟩, ?_⟩
  rw [scansOf, if_pos ⟨rfl, rfl⟩]
  by_cases hscans : w.store.scans actor = true
  · rw [if_pos hscans]
    exact (hasked.scan hs hscans hcases).1
  · rw [if_neg hscans]
    cases hcases with
    | skipped => exact hasked
    | closed _ h => exact absurd h hscans
    | through _ h => exact absurd h hscans

end

section

variable [Externals] [Instants]

/-! ## Histories -/

/-- The changes so far, with the newest record first. -/
inductive History : List Happening → Watching → Prop
  | opened {s : Store} : Indexed s → History [] { store := s }
  | step {log new : List Happening} {w u : Watching} :
    History log w → Change w new u → History (new ++ log) u

theorem History.indexed (h : History log w) : Indexed w.store := by
  induction h with
  | opened hs => exact hs
  | step _ hchange ih => exact hchange.extended.2 ih

/-- The counters of every watch of a participant's own are exact. -/
theorem History.counts (h : History log w) {actor id : String} {m : Monitor}
    (hm : w.monitor actor id = some m) (hpersonal : m.taskSubscription = none) :
    ∃ m₀, Counted log w actor id m m₀ := by
  induction h generalizing m with
  | opened => cases monitor_eq.symm.trans hm
  | @step log new w u hrun hchange ih =>
    have hs := hrun.indexed
    obtain ⟨hext, hu⟩ := hchange.extended
    have hu := hu hs
    cases hchange.fate hm with
    | @registered r start clock b _ hnone hstart hscan hnew hstore =>
      subst hnew
      have hcounted : Counted (.registered w actor id (r.monitor id start) clock :: log) w actor id m
          (r.monitor id start) := .register hs hstart hscan
      exact ⟨_, hcounted.of_store hstore⟩
    | @scanned m₁ m₂ b clock hm₁ hscan hnew hstore =>
      subst hnew
      have hsame := scanMonitor_same hscan
      have hpersonal₁ : m₁.taskSubscription = none := by
        cases b with
        | false => exact hpersonal
        | true => exact hsame.taskSubscription.symm.trans hpersonal
      obtain ⟨m₀, hcounted⟩ := ih hm₁ hpersonal₁
      obtain ⟨hcounted', hunchanged, -⟩ := hcounted.scan hs hpersonal₁ hscan
      refine ⟨m₀, ?_⟩
      cases b with
      | false => exact (hunchanged rfl ▸ hcounted').of_store hstore
      | true => exact hcounted'.of_store hstore
    | @kept m₁ _ hm₁ hkept _ hregistered hscanned =>
      obtain ⟨m₀, hcounted⟩ := ih hm₁ (hkept.same.taskSubscription.symm.trans hpersonal)
      exact ⟨m₀, (hcounted.fate hs hu hext hkept hregistered hscanned).1⟩
    | @acked m₁ receipt through hm₁ _ hnew =>
      subst hnew
      obtain ⟨m₀, hcounted⟩ := ih hm₁ hpersonal
      exact ⟨m₀, (hcounted.fate hs hu hext acknowledged_kept (by simp) (by simp)).1⟩
    | @read m₁ marked hm₁ hnew =>
      subst hnew
      obtain ⟨m₀, hcounted⟩ := ih hm₁ ((pastReads_kept (w := w)).same.taskSubscription.symm.trans hpersonal)
      exact ⟨m₀, (hcounted.fate hs hu hext pastReads_kept (by simp) (by simp)).1⟩
    | task htask => exact absurd hpersonal htask

/-! ## Pages of results -/

omit [Instants] in
theorem takeResults_front {limit : Nat} :
    ∀ {es : List Published} {count size : Nat}, ∃ rest, es = takeResults limit es count size ++ rest
  | [], _, _ => ⟨[], rfl⟩
  | e :: es, count, size => by
    unfold takeResults
    simp only
    split
    · exact ⟨e :: es, rfl⟩
    · obtain ⟨rest, hrest⟩ := takeResults_front
      exact ⟨rest, congrArg (e :: ·) hrest⟩

omit [Externals] [Instants] in
theorem resultRange_ok {s : Store} {p : Value} {range : Nat × Nat} (hstart : m.start ≤ m.scanned)
    (hacknowledged : m.acknowledged ≤ m.scanned) (h : s.resultRange actor m p = .ok range) :
    range.2 ≤ range.1 ∧ range.1 ≤ m.scanned := by
  unfold Store.resultRange at h
  split at h
  · obtain ⟨_, -, h⟩ := except_bind_ok.mp h
    obtain ⟨high, -, h⟩ := except_bind_ok.mp h
    obtain ⟨start, -, h⟩ := except_bind_ok.mp h
    obtain ⟨_, hrange, h⟩ := except_bind_ok.mp h
    obtain rfl := except_pure_ok.mp h
    rw [except_refuse_ok] at hrange
    simp only
    omega
  · obtain rfl := except_pure_ok.mp h
    refine ⟨?_, Nat.le_refl _⟩
    simp only
    split <;> assumption

omit [Instants] in
theorem monitorResults_receipt {s : Store} {v : Watchers} {p : Value} {page : ResultPage}
    (h : s.monitorResults v actor m p = .ok page) :
    page.receipt = s.resultReceipt actor m.id page.start page.through := by
  obtain ⟨range, -, h⟩ := except_bind_ok.mp h
  obtain rfl := except_pure_ok.mp h
  rfl

omit [Instants] in
/-- A page lists every hit of the interval it is about. -/
theorem monitorResults_page {s : Store} {v : Watchers} {p : Value} {page : ResultPage} (hs : Indexed s)
    (hstart : m.start ≤ m.scanned) (hacknowledged : m.acknowledged ≤ m.scanned)
    (h : s.monitorResults v actor m p = .ok page) :
    page.through ≤ m.scanned ∧ ∀ e ∈ s.events, page.start < e.position → e.position ≤ page.through →
      e.position ≤ m.hitHigh → s.monitorMatches v actor m e = true → e ∈ page.hits := by
  obtain ⟨range, hrange, h⟩ := except_bind_ok.mp h
  obtain ⟨hle, hscanned⟩ := resultRange_ok hstart hacknowledged hrange
  obtain rfl := except_pure_ok.mp h
  obtain ⟨rest, hrest⟩ : ∃ rest, s.hitsBetween v actor m range.2 range.1 =
      takeResults (min (max (p["limit"].asU64.getD 50) 1) 200) (s.hitsBetween v actor m range.2 range.1) 0 0
        ++ rest := takeResults_front
  generalize takeResults (min (max (p["limit"].asU64.getD 50) 1) 200)
    (s.hitsBetween v actor m range.2 range.1) 0 0 = hits at hrest ⊢
  have hordered : (s.hitsBetween v actor m range.2 range.1).Pairwise fun a b => a.position < b.position :=
    hs.ordered.filter _
  have hmem : ∀ e, e ∈ s.hitsBetween v actor m range.2 range.1 ↔ e ∈ s.events ∧ range.2 < e.position
      ∧ e.position ≤ range.1 ∧ e.position ≤ m.hitHigh ∧ s.monitorMatches v actor m e = true := by
    intro e
    unfold Store.hitsBetween
    simp [and_assoc]
  simp only
  by_cases hmore : hits.length < (s.hitsBetween v actor m range.2 range.1).length
  · rw [decide_eq_true hmore, if_pos rfl]
    refine ⟨?_, fun e he hafter hthrough hhigh hmatch => ?_⟩
    · by_cases hnone : hits = []
      · rw [hnone]
        exact hle.trans hscanned
      · obtain ⟨q, hq, hlast⟩ := lastPosition_mem range.2 hnone
        have := (hmem q).mp (hrest ▸ List.mem_append_left rest hq)
        have : q.position ≤ m.scanned := this.2.2.1.trans hscanned
        rw [← hlast] at this
        exact this
    · -- the hits come in order, so what is left lies behind the end of the page
      have hbefore : e.position ≤ range.1 := by
        by_cases hnone : hits = []
        · rw [hnone] at hthrough
          exact hthrough.trans hle
        · obtain ⟨q, hq, hlast⟩ := lastPosition_mem range.2 hnone
          have := (hmem q).mp (hrest ▸ List.mem_append_left rest hq)
          exact hthrough.trans (hlast.le.trans this.2.2.1)
      have he : e ∈ s.hitsBetween v actor m range.2 range.1 :=
        (hmem e).mpr ⟨he, hafter, hbefore, hhigh, hmatch⟩
      rw [hrest] at hordered he
      refine mem_front hordered (fun q hq => ?_) he hthrough
      exact ((hmem q).mp (hrest ▸ hq)).2.1
  · have hall : hits = s.hitsBetween v actor m range.2 range.1 := by
      have hlength := congrArg List.length hrest
      rw [List.length_append] at hlength
      have hnone : rest = [] := List.length_eq_zero_iff.mp (by omega)
      rw [hrest, hnone, List.append_nil]
    rw [decide_eq_false hmore]
    refine ⟨hscanned, fun e he hafter hthrough hhigh hmatch => ?_⟩
    rw [hall]
    exact (hmem e).mpr ⟨he, hafter, hthrough, hhigh, hmatch⟩

/-! ## Acknowledgements -/

/-- The participant's own reading of a publication, as a pass over its watches saw it. -/
def Watching.hasRead (w : Watching) (actor : String) (marked : StrSet) (e : Published) : Prop :=
  w.store.isRead actor e.event = true ∨ marked.contains (strv e.event "id") = true

omit [Externals] [Instants] in
/-- A pass over the watches stops in front of the first hit that is not read. -/
theorem readThrough_front (w : Watching) (actor : String) (marked : StrSet) (m : Monitor) :
    ∀ (es : List Published) (through : Nat), ∃ done rest, es = done ++ rest
      ∧ w.readThrough actor marked m es through = lastPosition done through
      ∧ ∀ e ∈ done, w.store.monitorMatches w.watchers actor m e = true → w.hasRead actor marked e
  | [], _ => ⟨[], [], rfl, rfl, nofun⟩
  | e :: es, through => by
    unfold Watching.readThrough
    split
    · exact ⟨[], e :: es, rfl, rfl, nofun⟩
    · rename_i hread
      obtain ⟨done, rest, hes, hthrough, hdone⟩ := readThrough_front w actor marked m es e.position
      refine ⟨e :: done, rest, congrArg (e :: ·) hes, ?_, fun e' he' hmatch => ?_⟩
      · rw [lastPosition_cons]
        exact hthrough
      · rcases List.mem_cons.mp he' with rfl | he'
        · unfold Watching.hasRead
          by_contra hnot
          rw [not_or] at hnot
          exact hread ⟨hmatch, hnot⟩
        · exact hdone e' he' hmatch

omit [Externals] [Instants] in
/-- A pass acknowledges hits that are read, and nothing behind the last hit. -/
theorem pastReads_acknowledged {marked : StrSet} (hs : Indexed w.store) :
    m.acknowledged ≤ (w.pastReads actor marked m).acknowledged
      ∧ (w.pastReads actor marked m).acknowledged ≤ max m.acknowledged m.hitHigh
      ∧ ∀ e ∈ w.store.events, m.acknowledged < e.position →
        e.position ≤ (w.pastReads actor marked m).acknowledged → e.position ≤ m.hitHigh →
        w.store.monitorMatches w.watchers actor m e = true → w.hasRead actor marked e := by
  unfold Watching.pastReads
  split
  · refine ⟨Nat.le_max_left _ _, ?_, fun e he hafter hle hhigh hmatch => ?_⟩
    · refine Nat.max_le.mpr ⟨Nat.le_max_left _ _, ?_⟩
      by_cases hrange : m.hitHigh ≤ m.acknowledged
      · rw [eventsBetween_none hs hrange]
        exact Nat.le_max_left _ _
      · obtain ⟨done, rest, hes, hthrough, -⟩ := readThrough_front w actor marked m
          (w.store.eventsBetween m.acknowledged m.hitHigh) m.acknowledged
        rw [hthrough]
        by_cases hnone : done = []
        · rw [hnone]
          exact Nat.le_max_left _ _
        · obtain ⟨q, hq, hlast⟩ := lastPosition_mem m.acknowledged hnone
          have hmem : q ∈ w.store.eventsBetween m.acknowledged m.hitHigh := hes ▸ List.mem_append_left rest hq
          have := ((mem_eventsBetween hs (not_le.mp hrange).le).mp hmem).2.2
          omega
    · have hrange : m.acknowledged ≤ m.hitHigh := hafter.le.trans hhigh
      have hmem : e ∈ w.store.eventsBetween m.acknowledged m.hitHigh :=
        (mem_eventsBetween hs hrange).mpr ⟨he, hafter, hhigh⟩
      have hordered := eventsBetween_ordered hs hrange
      have hlater : ∀ q ∈ w.store.eventsBetween m.acknowledged m.hitHigh, m.acknowledged < q.position :=
        fun q hq => ((mem_eventsBetween hs hrange).mp hq).2.1
      obtain ⟨done, rest, hes, hthrough, hdone⟩ := readThrough_front w actor marked m
        (w.store.eventsBetween m.acknowledged m.hitHigh) m.acknowledged
      rw [hthrough] at hle
      rw [hes] at hmem hordered hlater
      refine hdone e (mem_front hordered hlater hmem ?_) hmatch
      simp only [le_max_iff] at hle
      omega
  · refine ⟨Nat.le_refl _, Nat.le_max_left _ _, fun e _ hafter hle => ?_⟩
    omega

/-- The publication was on a page that covers it, unless it did not match any more. -/
def WasShown (log : List Happening) (actor id : String) (m₀ : Monitor) (e : Published) : Prop :=
  ∃ w m page, .shown w actor id m page ∈ log ∧ page.start < e.position ∧ e.position ≤ page.through
    ∧ (w.store.monitorMatches w.watchers actor m₀ e = true → e ∈ page.hits)

/-- The publication was read when a pass came past it, unless it did not match any more. -/
def WasRead (log : List Happening) (actor : String) (m₀ : Monitor) (e : Published) : Prop :=
  ∃ w marked, .read w actor marked ∈ log
    ∧ (w.store.monitorMatches w.watchers actor m₀ e = true → w.hasRead actor marked e)

/-- A watch stands under its own ID. -/
theorem History.ids (h : History log w) (hm : w.monitor actor id = some m) : m.id = id := by
  induction h generalizing m with
  | opened => cases monitor_eq.symm.trans hm
  | step _ hchange ih =>
    cases hchange.fate hm with
    | registered _ _ hscan => exact (scanMonitor_same hscan).id
    | @scanned m₁ m₂ b _ hm₁ hscan =>
      cases b with
      | false => exact ih hm₁
      | true => exact (scanMonitor_same hscan).id.trans (ih hm₁)
    | kept hm₁ hkept => exact hkept.same.id.trans (ih hm₁)
    | @acked m₁ _ _ hm₁ =>
      have hid := ih hm₁
      exact hid
    | read hm₁ => exact pastReads_kept.same.id.trans (ih hm₁)
    | task _ hid => exact hid

/-- A page that was shown is of a watch that is still there, and its receipt is its own. -/
theorem History.shown (h : History log w) {w' : Watching} {page : ResultPage}
    (hmem : .shown w' actor id m page ∈ log) : w.monitor actor id ≠ none
      ∧ page.receipt = w'.store.resultReceipt actor id page.start page.through := by
  induction h with
  | opened => exact (List.not_mem_nil hmem).elim
  | step hrun hchange ih =>
    rcases List.mem_append.mp hmem with hnew | hold
    · obtain ⟨rfl, hm, -, hm', p, hpage⟩ := hchange.shown hnew
      refine ⟨by simp [hm'], ?_⟩
      rw [monitorResults_receipt hpage, hrun.ids hm]
    · obtain ⟨hthere, hreceipt⟩ := ih hold
      exact ⟨fun hnone => hthere (hchange.stays hnone), hreceipt⟩

/-- The digests that are remembered are those of the receipts that were shown. -/
theorem History.receipts (h : History log w) {d : String} (hd : d ∈ entryD w.receipts actor ∅) :
    ∃ w' i m page, .shown w' actor i m page ∈ log ∧ d = receiptDigest page.receipt := by
  induction h with
  | opened =>
    have hnone : entryD (∅ : Map StrSet) actor ∅ = ∅ := by
      unfold entryD
      rw [Std.ExtTreeMap.getElem?_empty]
      rfl
    rw [hnone] at hd
    exact (Std.ExtTreeSet.not_mem_empty hd).elim
  | step _ hchange ih =>
    rcases hchange.receipts hd with hold | ⟨i, m, page, hnew, hdigest⟩
    · obtain ⟨w', i, m, page, hmem, hdigest⟩ := ih hold
      exact ⟨w', i, m, page, List.mem_append_right _ hmem, hdigest⟩
    · exact ⟨_, i, m, page, List.mem_append_left _ hnew, hdigest⟩

omit [Externals] [Instants] in
theorem asU64_natCast {n k : Nat} (h : (Value.num n).asU64 = some k) : k = n := by
  have hnum : (if (0 : Int) ≤ n ∧ (n : Int) < 2 ^ 64 then some (n : Int).toNat else none) = some k := h
  rw [Option.ite_none_right_eq_some] at hnum
  exact (Option.some.inj hnum.2).symm.trans (Int.toNat_natCast n)

omit [Instants] in
theorem acknowledged_ok {receipt : Value} {through : Nat}
    (h : w.acknowledged actor id m receipt = .ok through) :
    receiptDigest receipt ∈ entryD w.receipts actor ∅ ∧ receipt["monitor_id"] = .str id
      ∧ ∃ n k, receipt["from"].asU64 = some n ∧ receipt["through"].asU64 = some k
        ∧ n ≤ m.acknowledged ∧ k ≤ m.scanned ∧ through = max m.acknowledged k := by
  unfold Watching.acknowledged at h
  obtain ⟨_, hknown, h⟩ := except_bind_ok.mp h
  obtain ⟨_, hown, h⟩ := except_bind_ok.mp h
  obtain ⟨n, hn, h⟩ := except_bind_ok.mp h
  obtain ⟨k, hk, h⟩ := except_bind_ok.mp h
  obtain ⟨_, hrange, h⟩ := except_bind_ok.mp h
  obtain rfl := except_pure_ok.mp h
  rw [except_refuse_ok] at hknown hown hrange
  rw [except_okOr_ok] at hn hk
  rw [not_not, Std.ExtTreeSet.contains_iff_mem] at hknown
  simp only [not_or, not_not, not_lt] at hown hrange
  exact ⟨hknown, hown.2.1, n, k, hn, hk, hrange.1, hrange.2.2, rfl⟩

/-- The receipts that were acknowledged are told apart from those that were shown. -/
def ReceiptsApart (log : List Happening) : Prop :=
  ∀ a i receipt, .acked a i receipt ∈ log → ∀ w a' i' m page, .shown w a' i' m page ∈ log →
    receiptDigest receipt = receiptDigest page.receipt → receipt = page.receipt

/-- What is acknowledged of a watch was shown or read. -/
structure Handled (log : List Happening) (w : Watching) (actor id : String) (m m₀ : Monitor) : Prop where
  acknowledged_ge : m₀.start ≤ m.acknowledged
  acknowledged_le : m.acknowledged ≤ m.scanned
  through_le : ∀ w' m' page, .shown w' actor id m' page ∈ log → page.through ≤ m.scanned
  listed : ∀ w' m' page, .shown w' actor id m' page ∈ log →
    ∀ e ∈ counted actor m₀ (scansOf actor id log) w.store m, page.start < e.position →
      e.position ≤ page.through → w'.store.monitorMatches w'.watchers actor m₀ e = true → e ∈ page.hits
  handled : ∀ e ∈ counted actor m₀ (scansOf actor id log) w.store m, e.position ≤ m.acknowledged →
    WasShown log actor id m₀ e ∨ WasRead log actor m₀ e

omit [Externals] [Instants] in
theorem WasShown.later {m₀ : Monitor} {e : Published} (h : WasShown log actor id m₀ e) :
    WasShown (new ++ log) actor id m₀ e := by
  obtain ⟨w', m', page, hmem, hpage⟩ := h
  exact ⟨w', m', page, List.mem_append_right _ hmem, hpage⟩

omit [Externals] [Instants] in
theorem WasRead.later {m₀ : Monitor} {e : Published} (h : WasRead log actor m₀ e) :
    WasRead (new ++ log) actor m₀ e := by
  obtain ⟨w', marked, hmem, hread⟩ := h
  exact ⟨w', marked, List.mem_append_right _ hmem, hread⟩

omit [Externals] [Instants] in
/-- A watch after a change that settles what was scanned; what is newly acknowledged is named apart. -/
theorem Handled.settle {m₀ : Monitor} (h : Handled log w actor id m m₀)
    (hsettled : Settled actor m₀ (scansOf actor id log) w.store m (scansOf actor id (new ++ log)) u.store m')
    (hge : m.acknowledged ≤ m'.acknowledged) (hle : m'.acknowledged ≤ m'.scanned)
    (hshown : ∀ w' m₁ page, .shown w' actor id m₁ page ∈ new → page.through ≤ m'.scanned
      ∧ ∀ e ∈ counted actor m₀ (scansOf actor id (new ++ log)) u.store m', page.start < e.position →
        e.position ≤ page.through → w'.store.monitorMatches w'.watchers actor m₀ e = true → e ∈ page.hits)
    (hhandled : ∀ e ∈ counted actor m₀ (scansOf actor id (new ++ log)) u.store m',
      m.acknowledged < e.position → e.position ≤ m'.acknowledged →
      WasShown (new ++ log) actor id m₀ e ∨ WasRead (new ++ log) actor m₀ e) :
    Handled (new ++ log) u actor id m' m₀ := by
  obtain ⟨hscanned, hold⟩ := hsettled
  refine {
    acknowledged_ge := h.acknowledged_ge.trans hge
    acknowledged_le := hle
    through_le := fun w' m₁ page hmem => ?_
    listed := fun w' m₁ page hmem e he hafter hthrough => ?_
    handled := fun e he hacknowledged => ?_ }
  · rcases List.mem_append.mp hmem with hnew | hmem
    · exact (hshown w' m₁ page hnew).1
    · exact (h.through_le w' m₁ page hmem).trans hscanned
  · rcases List.mem_append.mp hmem with hnew | hmem
    · exact (hshown w' m₁ page hnew).2 e he hafter hthrough
    · have hle := hthrough.trans (h.through_le w' m₁ page hmem)
      exact h.listed w' m₁ page hmem e (hold e he hle) hafter hthrough
  · by_cases hbefore : e.position ≤ m.acknowledged
    · exact (h.handled e (hold e he (hbefore.trans h.acknowledged_le)) hbefore).imp .later .later
    · exact hhandled e he (not_le.mp hbefore) hacknowledged

/-- What every watch of a participant's own has acknowledged was shown or read. -/
theorem History.handled (h : History log w) (hdistinct : ReceiptsApart log) {actor id : String} {m : Monitor}
    (hm : w.monitor actor id = some m) (hpersonal : m.taskSubscription = none) :
    ∃ m₀, Counted log w actor id m m₀ ∧ Handled log w actor id m m₀ := by
  induction h generalizing m with
  | opened => cases monitor_eq.symm.trans hm
  | @step log new w u hrun hchange ih =>
    have hs := hrun.indexed
    obtain ⟨hext, hlater⟩ := hchange.extended
    have hu : Indexed u.store := hlater hs
    have ih := fun {m : Monitor} => ih (m := m) fun a i receipt hmem w' a' i' m₁ page hmem' =>
      hdistinct a i receipt (List.mem_append_right _ hmem) w' a' i' m₁ page (List.mem_append_right _ hmem')
    -- the pages that this change shows
    have hshown : ∀ m₀ m', Counted (new ++ log) u actor id m' m₀ → ∀ w' m₁ page, .shown w' actor id m₁ page ∈ new →
        u.monitor actor id = some m' → m'.acknowledged ≤ m'.scanned → page.through ≤ m'.scanned
          ∧ ∀ e ∈ counted actor m₀ (scansOf actor id (new ++ log)) u.store m', page.start < e.position →
            e.position ≤ page.through → w'.store.monitorMatches w'.watchers actor m₀ e = true →
            e ∈ page.hits := by
      rintro m₀ m' ⟨-, hexact⟩ w' m₁ page hmem hm' hacknowledged
      obtain ⟨rfl, -, hstore, hm₁, p, hpage⟩ := hchange.shown hmem
      obtain rfl := Option.some.inj (hm₁.symm.trans hm')
      have hstart : m₁.start ≤ m₁.scanned := hexact.same.start ▸ hexact.start_le
      obtain ⟨hthrough, hlists⟩ := monitorResults_page hs hstart hacknowledged hpage
      refine ⟨hthrough, fun e he hafter hle hmatch => hlists e ?_ hafter hle ?_ ?_⟩
      · rw [← hstore]
        exact ((mem_counted hu hexact).mp he).1.1
      · exact le_hitHigh hu hexact he
      · rw [hexact.same.hits]
        exact hmatch
    cases hchange.fate hm with
    | @registered r start clock b _ hnone hstart hscan hnew hstore =>
      subst hnew
      have hcounted : Counted (.registered w actor id (r.monitor id start) clock :: log) u actor id m
          (r.monitor id start) := (Counted.register hs hstart hscan).of_store hstore
      have hacknowledged : m.acknowledged = start := by
        obtain ⟨hcases, -⟩ := scanMonitor_cases (m := r.monitor id start) rfl (fun _ => rfl) hscan
        cases hcases <;> rfl
      have hunshown : ∀ w' m₁ page, Happening.shown w' actor id m₁ page ∉
          Happening.registered w actor id (r.monitor id start) clock :: log := by
        intro w' m₁ page hmem
        rcases List.mem_cons.mp hmem with hmem | hmem
        · cases hmem
        · exact (hrun.shown hmem).1 hnone
      refine ⟨r.monitor id start, hcounted, ?_⟩
      exact {
        acknowledged_ge := hacknowledged.ge
        acknowledged_le := hacknowledged.le.trans hcounted.2.start_le
        through_le := fun w' m₁ page hmem => absurd hmem (hunshown w' m₁ page)
        listed := fun w' m₁ page hmem => absurd hmem (hunshown w' m₁ page)
        handled := fun e he hle => by
          have := ((mem_counted hu hcounted.2).mp he).1.2.1
          have hstart : (r.monitor id start).start = start := rfl
          omega }
    | @scanned m₁ m₂ b clock hm₁ hscan hnew hstore =>
      subst hnew
      have hpersonal₁ : m₁.taskSubscription = none := by
        cases b with
        | false => exact hpersonal
        | true => exact (scanMonitor_same hscan).taskSubscription.symm.trans hpersonal
      obtain ⟨m₀, hcounted, hhandled⟩ := ih hm₁ hpersonal₁
      obtain ⟨hcounted', hunchanged, hsettled⟩ := hcounted.scan hs hpersonal₁ hscan
      obtain ⟨hcases, -⟩ := scanMonitor_cases hpersonal₁ (fun hactive => (hcounted.2.active hactive).1) hscan
      have hacknowledged : m₂.acknowledged = m₁.acknowledged := by
        cases hcases <;> rfl
      have hm₂ : (if b then m₂ else m₁) = m₂ := by
        cases b with
        | false => exact (hunchanged rfl).symm
        | true => rfl
      rw [hm₂] at hm ⊢
      refine ⟨m₀, hcounted'.of_store hstore, hhandled.settle (hstore ▸ hsettled) hacknowledged.ge ?_ (by simp) ?_⟩
      · rw [hacknowledged]
        exact hhandled.acknowledged_le.trans hsettled.1
      · intro e _ hafter hle
        omega
    | @kept m₁ _ hm₁ hkept hacknowledged hregistered hscanned =>
      obtain ⟨m₀, hcounted, hhandled⟩ := ih hm₁ (hkept.same.taskSubscription.symm.trans hpersonal)
      obtain ⟨hcounted', hsettled⟩ := hcounted.fate hs hu hext hkept hregistered hscanned
      have hle : m.acknowledged ≤ m.scanned := by
        rw [hacknowledged, hkept.scanned]
        exact hhandled.acknowledged_le
      refine ⟨m₀, hcounted', hhandled.settle hsettled hacknowledged.ge hle
        (fun w' m₂ page hmem => hshown m₀ m hcounted' w' m₂ page hmem hm hle) ?_⟩
      intro e _ hafter hle
      omega
    | @acked m₁ receipt through hm₁ hthrough hnew =>
      subst hnew
      obtain ⟨m₀, hcounted, hhandled⟩ := ih hm₁ hpersonal
      have hregistered : ∀ w' m₀ clock, Happening.registered w' actor id m₀ clock ∉
          [Happening.acked actor id receipt] := by simp
      have hscanned : ∀ w' clock, Happening.scanned w' actor clock ∉ [Happening.acked actor id receipt] := by
        simp
      obtain ⟨hcounted', hsettled⟩ := hcounted.fate hs hu hext (@acknowledged_kept m₁ through) hregistered
        hscanned
      obtain ⟨hknown, hwatch, n, k, hn, hk, hfrom, hto, rfl⟩ := acknowledged_ok hthrough
      -- the receipt is the one of a page that was shown for this watch
      obtain ⟨w', i, m₂, page, hmem, hdigest⟩ := hrun.receipts hknown
      obtain rfl := hdistinct actor id receipt (by simp) w' actor i m₂ page (by simp [hmem]) hdigest
      have hreceipt := (hrun.shown hmem).2
      obtain rfl : i = id := by
        rw [hreceipt, Store.resultReceipt, idx_object] at hwatch
        simpa [List.lookup] using hwatch
      obtain rfl : n = page.start := by
        rw [hreceipt, Store.resultReceipt, idx_object] at hn
        exact asU64_natCast (by simpa [List.lookup] using hn)
      obtain rfl : k = page.through := by
        rw [hreceipt, Store.resultReceipt, idx_object] at hk
        exact asU64_natCast (by simpa [List.lookup] using hk)
      refine ⟨m₀, hcounted', hhandled.settle hsettled (Nat.le_max_left _ _)
        (Nat.max_le.mpr ⟨hhandled.acknowledged_le, hto⟩) (by simp) fun e he hafter hle => ?_⟩
      have hthrough : e.position ≤ page.through := by
        simp only [le_max_iff] at hle
        omega
      refine .inl ⟨w', m₂, page, by simp [hmem], hfrom.trans_lt hafter, hthrough, fun hmatch => ?_⟩
      exact hhandled.listed w' m₂ page hmem e (hsettled.2 e he (hthrough.trans hto)) (hfrom.trans_lt hafter)
        hthrough hmatch
    | @read m₁ marked hm₁ hnew hstore =>
      subst hnew
      obtain ⟨m₀, hcounted, hhandled⟩ := ih hm₁ ((pastReads_kept (w := w)).same.taskSubscription.symm.trans hpersonal)
      have hregistered : ∀ w' m₀ clock, Happening.registered w' actor id m₀ clock ∉
          [Happening.read w actor marked] := by simp
      have hscanned : ∀ w' clock, Happening.scanned w' actor clock ∉ [Happening.read w actor marked] := by
        simp
      obtain ⟨hcounted', hsettled⟩ := hcounted.fate hs hu hext (pastReads_kept (w := w)) hregistered hscanned
      obtain ⟨hge, hle, hread⟩ := pastReads_acknowledged (w := w) (m := m₁) hs
      have hhigh := hcounted.2.hitHigh_le hs
      refine ⟨m₀, hcounted', hhandled.settle hsettled hge ?_ (by simp) fun e he hafter hacknowledged => ?_⟩
      · have := hhandled.acknowledged_le
        rw [pastReads_kept.scanned]
        omega
      · -- whoever passes a hit has read it
        have hlow : e.position ≤ m₁.scanned := by
          have := hhandled.acknowledged_le
          omega
        have hold := hsettled.2 e he hlow
        refine .inr ⟨w, marked, by simp, fun hmatch => hread e ?_ hafter hacknowledged ?_ ?_⟩
        · exact ((mem_counted hs hcounted.2).mp hold).1.1
        · exact le_hitHigh hs hcounted.2 hold
        · rw [hcounted.2.same.hits]
          exact hmatch
    | task htask => exact absurd hpersonal htask

/-! ## Calls -/

/-- The state came about by changes, which are recorded. -/
def Recorded (w u : Watching) : Prop := ∀ log, History log w → ∃ new, History (new ++ log) u

instance : Std.Refl Recorded := ⟨fun _ _ h => ⟨[], h⟩⟩

instance : IsTrans Watching Recorded := ⟨fun _ _ _ h h' log hlog => by
  obtain ⟨new, hnew⟩ := h log hlog
  obtain ⟨new', hnew'⟩ := h' _ hnew
  exact ⟨new' ++ new, by rwa [List.append_assoc]⟩⟩

theorem Recorded.of_change (h : Change w new u) : Recorded w u := fun _ hlog => ⟨new, hlog.step h⟩

/-- No watch came into being. -/
def Unborn (w u : Watching) : Prop := ∀ a i, w.monitor a i = none → u.monitor a i = none

instance : Std.Refl Unborn := ⟨fun _ _ _ h => h⟩

instance : IsTrans Watching Unborn := ⟨fun _ _ _ h h' a i hnone => h' a i (h a i hnone)⟩

omit [Externals] [Instants] in
theorem savePersonal_error {f : Map Monitor → Map Monitor} {e : ChatError}
    (h : savePersonal actor f w = .error e u) : u = w := by
  unfold savePersonal at h
  obtain ⟨-, rfl⟩ | ⟨_, -, h⟩ := bind_query_error.mp h
  · rfl
  · cases h

omit [Externals] in
theorem advanceOwner_error {owner : String} {clock : Int} {e : ChatError}
    (h : advanceOwner clock owner w = .error e u) : u = w := by
  obtain ⟨-, rfl⟩ | ⟨_, -, h⟩ := bind_query_error.mp h
  · rfl
  · exact savePersonal_error (onlyIf_error.mp h).2

theorem advanceOwner_recorded {owner : String} {clock : Int} : Evolves Recorded (advanceOwner clock owner) w := by
  unfold Evolves
  cases h : advanceOwner clock owner w with
  | ok _ u =>
    rw [after_ok h]
    exact .of_change (.scans h)
  | error e u =>
    rw [after_error h, advanceOwner_error h]
    exact Std.Refl.refl (r := Recorded) w

omit [Externals] in
theorem advanceOwner_unborn {owner : String} {clock : Int} : Evolves Unborn (advanceOwner clock owner) w := by
  unfold Evolves
  cases h : advanceOwner clock owner w with
  | ok _ u =>
    rw [after_ok h]
    obtain ⟨-, -, hother, -, hown⟩ := advanceOwner_ok h
    intro a i hnone
    by_cases ha : a = owner
    · subst ha
      refine Option.eq_none_iff_forall_ne_some.mpr fun m hm => ?_
      obtain ⟨m₁, -, -, hm₁, -⟩ := hown i m hm
      rw [hnone] at hm₁
      cases hm₁
    · rwa [hother a i ha]
  | error e u =>
    rw [after_error h, advanceOwner_error h]
    exact Std.Refl.refl (r := Unborn) w

theorem advanceMonitorsAt_recorded {clock : Int} : Evolves Recorded (advanceMonitorsAt clock) w :=
  .bind_get (.forM (fun _ _ _ => advanceOwner_recorded) w)

omit [Externals] in
theorem advanceMonitorsAt_unborn {clock : Int} : Evolves Unborn (advanceMonitorsAt clock) w :=
  .bind_get (.forM (fun _ _ _ => advanceOwner_unborn) w)

theorem registerMonitor_recorded {r : WatchRequest} {clock later : Int} (hnew : w.monitor actor id = none) :
    Evolves Recorded (registerMonitor actor id r clock later) w := by
  refine .bind advanceMonitorsAt_recorded fun _ u hadvanced => .bind_get (.bind_refuse fun _ => ?_)
  have hnew' : u.monitor actor id = none := by
    have hunborn : Unborn w (after (advanceMonitorsAt clock) w) := advanceMonitorsAt_unborn
    rw [after_ok hadvanced] at hunborn
    exact hunborn actor id hnew
  refine .bind_check fun start hstart => .bind_check fun found hfound => ?_
  unfold Evolves
  cases h : savePersonal actor (fun monitors => monitors.insert id found.2) u with
  | ok _ v =>
    rw [after_ok h]
    obtain ⟨-, rfl⟩ := savePersonal_ok.mp h
    exact .of_change (.registers hnew' hstart hfound)
  | error e v =>
    rw [after_error h, savePersonal_error h]
    exact Std.Refl.refl (r := Recorded) u

theorem getResults_recorded {p : Value} (hm : w.monitor actor id = some m) :
    Evolves Recorded (getResults actor m p) w := by
  unfold Evolves
  cases h : getResults actor m p w with
  | ok page u =>
    rw [after_ok h]
    exact .of_change (.shows hm h)
  | error e u =>
    rw [after_error h]
    obtain ⟨-, rfl⟩ | ⟨_, -, h⟩ := bind_query_error.mp h
    · exact Std.Refl.refl (r := Recorded) _
    · obtain ⟨-, rfl⟩ | ⟨_, -, h⟩ := bind_query_error.mp h
      · exact Std.Refl.refl (r := Recorded) _
      · exact absurd (bind_modify_error.mp h) pure_error

theorem ackResults_recorded {receipt : Value} (hm : w.monitor actor id = some m) :
    Evolves Recorded (ackResults actor id m receipt) w := by
  unfold Evolves
  cases h : ackResults actor id m receipt w with
  | ok _ u =>
    rw [after_ok h]
    exact .of_change (.acks hm h)
  | error e u =>
    rw [after_error h]
    obtain ⟨-, rfl⟩ | ⟨through, -, h⟩ := bind_query_error.mp h
    · exact Std.Refl.refl (r := Recorded) _
    · obtain ⟨-, rfl⟩ | ⟨_, hsavable, h⟩ := bind_query_error.mp h
      · exact Std.Refl.refl (r := Recorded) _
      · -- what could be saved before the task was told can be saved after it
        obtain ⟨hunsavable, -⟩ | ⟨_, -, h⟩ := bind_query_error.mp (bind_modify_error.mp h)
        · cases hsavable.symm.trans hunsavable
        · cases h

theorem closeMonitor_recorded {state : MonitorState} (hm : w.monitor actor id = some m)
    (hstate : state = .cancelled ∨ state = .dismissed) :
    Evolves Recorded (closeMonitor actor id m state) w := by
  unfold Evolves
  cases h : closeMonitor actor id m state w with
  | ok _ u =>
    rw [after_ok h]
    exact .of_change (.closes hm hstate h)
  | error e u =>
    rw [after_error h, savePersonal_error (bind_get_error.mp h)]
    exact Std.Refl.refl (r := Recorded) w

theorem cancelAll_recorded : Evolves Recorded (cancelAll actor) w := by
  unfold Evolves
  cases h : cancelAll actor w with
  | ok _ u =>
    rw [after_ok h]
    exact .of_change (.cancels h)
  | error e u =>
    rw [after_error h, savePersonal_error (bind_get_error.mp h)]
    exact Std.Refl.refl (r := Recorded) w

theorem actOnMonitor_recorded {action : String} {p : Value} (hm : w.monitor actor id = some m) :
    Evolves Recorded (actOnMonitor actor action id m p) w := by
  unfold actOnMonitor
  refine .ite (fun _ => .bind (getResults_recorded hm) fun _ _ _ => .pure) fun _ => ?_
  refine .ite (fun _ => .bind (closeMonitor_recorded hm (.inl rfl)) fun _ _ _ => .pure) fun _ => ?_
  refine .ite (fun _ => .bind (closeMonitor_recorded hm (.inr rfl)) fun _ _ _ => .pure) fun _ => ?_
  exact .ite (fun _ => .bind (ackResults_recorded hm) fun _ _ _ => .pure) fun _ => .bind .throw fun _ _ _ => .pure

theorem monitors_recorded {p : Value} {clock : Int} : Evolves Recorded (monitors actor p clock) w := by
  unfold monitors
  refine .bind_get (.bind_refuse fun _ => .bind advanceMonitorsAt_recorded fun _ u _ => ?_)
  refine .ite (fun _ => .pure) fun _ => .ite (fun _ => .bind cancelAll_recorded fun _ _ _ => .pure) fun _ => ?_
  refine .bind_check fun id _ => .bind_get (.bind_okOr fun m hm => ?_)
  refine .bind (.onlyIf fun _ => .query) fun _ v hchecked => ?_
  obtain ⟨hrun, hskip⟩ := onlyIf_ok.mp hchecked
  have hsame : v = u := by
    by_cases hmutation : (["ack", "cancel", "dismiss"].contains (p["action"].asStr.getD "list")) = true
    · exact (check_ok.mp (hrun hmutation)).2.symm
    · exact (hskip hmutation).symm
  rw [hsame]
  exact actOnMonitor_recorded (Option.filter_eq_some_iff.mp hm).1

theorem advanceMonitorAcksPastReads_recorded {marked : StrSet} :
    Evolves Recorded (advanceMonitorAcksPastReads actor marked) w := by
  unfold Evolves
  cases h : advanceMonitorAcksPastReads actor marked w with
  | ok _ u =>
    rw [after_ok h]
    exact .of_change (.reads h)
  | error e u =>
    have hsave := h
    unfold advanceMonitorAcksPastReads at hsave
    rw [bind_get_error] at hsave
    rw [after_error h, savePersonal_error (onlyIf_error.mp hsave).2]
    exact Std.Refl.refl (r := Recorded) w

/-- What calls, arrivals and other changes make of the watches of a store that was just opened. -/
inductive Served : Watching → Prop
  | opened {s : Store} : Indexed s → Served { store := s }
  | arrives {w : Watching} {t : Store} :
    Served w → Extended w.store t → Indexed t → Served { w with store := t }
  | elsewhere {w u : Watching} : Served w → w.Elsewhere u → Served u
  | registers {w : Watching} {actor id : String} (r : WatchRequest) (clock later : Int) :
    Served w → w.monitor actor id = none → Served (after (registerMonitor actor id r clock later) w)
  | advances {w : Watching} (clock : Int) : Served w → Served (after (advanceMonitorsAt clock) w)
  | monitors {w : Watching} (actor : String) (p : Value) (clock : Int) :
    Served w → Served (after (ClaudeManager.monitors actor p clock) w)
  | reads {w : Watching} (actor : String) (marked : StrSet) :
    Served w → Served (after (advanceMonitorAcksPastReads actor marked) w)

/-- What any calls make of the store arrives. -/
theorem Served.reached {t : Store} (huuid : MintsOnce)
    (hparse : ∀ v w, Externals.parse (Externals.compact v) = .ok w → w = v) (h : Served w)
    (hheld : Held (fun _ => True) w.store) (hrun : Reached w.store t) : Served { w with store := t } := by
  have hlater := hrun.extended huuid hparse hheld
  exact .arrives h hlater.holds hlater.indexed

theorem Served.history (h : Served w) : ∃ log, History log w := by
  induction h with
  | opened hs => exact ⟨[], .opened hs⟩
  | arrives _ hext ht ih =>
    obtain ⟨log, hlog⟩ := ih
    exact ⟨_, hlog.step (.arrives hext ht)⟩
  | elsewhere _ hother ih =>
    obtain ⟨log, hlog⟩ := ih
    exact ⟨_, hlog.step (.elsewhere hother)⟩
  | registers r clock later _ hnew ih =>
    obtain ⟨log, hlog⟩ := ih
    obtain ⟨new, hnew⟩ := registerMonitor_recorded hnew log hlog
    exact ⟨_, hnew⟩
  | advances clock _ ih =>
    obtain ⟨log, hlog⟩ := ih
    obtain ⟨new, hnew⟩ := advanceMonitorsAt_recorded log hlog
    exact ⟨_, hnew⟩
  | monitors actor p clock _ ih =>
    obtain ⟨log, hlog⟩ := ih
    obtain ⟨new, hnew⟩ := monitors_recorded log hlog
    exact ⟨_, hnew⟩
  | reads actor marked _ ih =>
    obtain ⟨log, hlog⟩ := ih
    obtain ⟨new, hnew⟩ := advanceMonitorAcksPastReads_recorded log hlog
    exact ⟨_, hnew⟩

end

/-! ## A watch for one message -/

section

local instance watchedText : Externals := briefText

local instance watchedTimes : Instants where
  instant _ := none

/-- Watch every channel from its first message on. -/
def firstMessage : WatchRequest where
  scope := { channel := some "*" }
  mode := .once
  notify := .badge
  includeSelf := true
  expiresAt := none
  start := some (relayed.positionToken 0)

/-- The watch is registered, its hits are read and acknowledged. -/
def firstMessageAcked : Watching :=
  after (monitors "owner" (object [("action", "ack"), ("monitor_id", "first"),
      ("receipt", relayed.resultReceipt "owner" "first" 0 4)]) 2)
    (after (monitors "owner" (object [("action", "get"), ("monitor_id", "first")]) 1)
      (after (registerMonitor "owner" "first" firstMessage 0 0) { store := relayed }))

theorem firstMessageAcked_served : Served firstMessageAcked := by
  have hheld : Held (fun _ => True) relayed :=
    Opened.holds briefText_once (fun v w h => by cases h) (fun _ _ => trivial) (fun _ => trivial) relayed_opened
  exact .monitors _ _ _ (.monitors _ _ _ (.registers _ _ _ (.opened hheld.indexed) rfl))

end

end ClaudeManager
