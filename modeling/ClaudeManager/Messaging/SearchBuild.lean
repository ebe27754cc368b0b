import ClaudeManager.Messaging.MemberReplay
import ClaudeManager.Messaging.ReadPaths
import ClaudeManager.Messaging.Search
import ClaudeManager.Program.Scanning

/-!
# Built while the store goes on

An index that is in use holds exactly the readable events of its conversation, however the calls of the store
and the turns of the worker that built it fell.

* `Covers` — what an index holds of the history
* `Sorted` — its postings are in order
* `Copying`, `Following` — an index under construction, in its two phases
* `searching_exact` — every index in use is exact, after any steps
-/

namespace ClaudeManager

open Json Containers Program

namespace Search

/-! ## Histories -/

/-- No two events of the history have the same place in a conversation. -/
def Keyed (events : List Published) : Prop :=
  ∀ (i j : Nat) (p q : Published), events[i]? = some p → events[j]? = some q → p.cursor = q.cursor → i = j

/-- A document of an event that has what is asked. -/
def Holds (events : List Published) (documents : List Document) (q : Published → Prop) (i : Nat) : Prop :=
  ∃ x p, documents[i]? = some x ∧ events[x.2]? = some p ∧ q p

/-- The documents are of events. -/
def Refers (events : List Published) (documents : List Document) : Prop :=
  ∀ x ∈ documents, ∃ p, events[x.2]? = some p ∧ p.cursor = x.1

section

variable {events more : List Published} {documents : List Document} {q : Published → Prop} {i n : Nat}
  {e : Published} {x : Document}

theorem keyed_of_distinct (h : (events.map fun p => strv p.event "id").Nodup) : Keyed events := by
  intro i j p q hp hq hkey
  -- a place carries the event's ID
  have hid : strv p.event "id" = strv q.event "id" := congrArg ReadCursor.eventId hkey
  obtain ⟨hi, rfl⟩ := List.getElem?_eq_some_iff.mp hp
  obtain ⟨hj, rfl⟩ := List.getElem?_eq_some_iff.mp hq
  refine (@List.Nodup.getElem_inj_iff _ _ h i (by simpa using hi) j (by simpa using hj)).mp ?_
  simpa using hid

theorem Keyed.front (h : Keyed (events ++ more)) : Keyed events := by
  intro i j p q hp hq
  refine h i j p q ?_ ?_
  · rw [List.getElem?_append_left (List.getElem?_eq_some_iff.mp hp).1]
    exact hp
  · rw [List.getElem?_append_left (List.getElem?_eq_some_iff.mp hq).1]
    exact hq

theorem holds_lt (h : Holds events documents q i) : i < documents.length := by
  obtain ⟨x, -, hx, -⟩ := h
  exact (List.getElem?_eq_some_iff.mp hx).1

/-- One more document. -/
theorem holds_snoc (he : events[x.2]? = some e) :
    Holds events (documents ++ [x]) q i ↔ i = documents.length ∧ q e ∨ Holds events documents q i := by
  unfold Holds
  constructor
  · rintro ⟨y, p, hy, hp, hq⟩
    rcases Nat.lt_or_ge i documents.length with hi | hi
    · rw [List.getElem?_append_left hi] at hy
      exact .inr ⟨y, p, hy, hp, hq⟩
    · rw [List.getElem?_append_right hi, List.getElem?_singleton] at hy
      split at hy
      · rename_i hzero
        obtain rfl := Option.some.inj hy
        obtain rfl := Option.some.inj (he.symm.trans hp)
        exact .inl ⟨by omega, hq⟩
      · cases hy
  · rintro (⟨rfl, hq⟩ | ⟨y, p, hy, hp, hq⟩)
    · exact ⟨x, e, by simp, he, hq⟩
    · refine ⟨y, p, ?_, hp, hq⟩
      rw [List.getElem?_append_left (List.getElem?_eq_some_iff.mp hy).1]
      exact hy

/-- What later events are does not matter to documents of earlier ones. -/
theorem holds_append (hrefers : Refers events documents) :
    Holds (events ++ more) documents q i ↔ Holds events documents q i := by
  unfold Holds
  refine exists_congr fun x => exists_congr fun p => and_congr_right fun hx => ?_
  obtain ⟨r, hr, -⟩ := hrefers x (List.mem_of_getElem? hx)
  rw [List.getElem?_append_left (List.getElem?_eq_some_iff.mp hr).1]

theorem documentAt_of (h : documents[i]? = some x) : documentAt documents i = x := by
  unfold documentAt
  rw [h]
  rfl

theorem documentAt_append (h : i < documents.length) : documentAt (documents ++ [x]) i = documentAt documents i := by
  unfold documentAt
  rw [List.getElem?_append_left h]

theorem documentAt_last : documentAt (documents ++ [x]) documents.length = x := documentAt_of (by simp)

end

/-! ## Postings -/

/-- A posting lists the documents of a kind, each once. -/
structure Filed (p : Posting) (P : Nat → Prop) : Prop where
  canonical : p.canonical.Nodup
  arrivals : p.arrivals.Nodup
  mem_canonical : ∀ i, i ∈ p.canonical ↔ P i
  mem_arrivals : ∀ i, i ∈ p.arrivals ↔ P i

/-- A posting is in the order of the conversation, and in that of the arrivals. -/
structure Ordered (documents : List Document) (p : Posting) : Prop where
  canonical : p.canonical.Pairwise fun i j => (documentAt documents i).1 < (documentAt documents j).1
  arrivals : p.arrivals.Pairwise fun i j => (documentAt documents i).2 < (documentAt documents j).2

section

variable {p : Posting} {P Q : Nat → Prop} {documents : List Document} {x : Document} {n : Nat}

theorem filed_empty (h : ∀ i, ¬ P i) : Filed {} P :=
  ⟨List.nodup_nil, List.nodup_nil, fun i => iff_of_false List.not_mem_nil (h i),
    fun i => iff_of_false List.not_mem_nil (h i)⟩

theorem Filed.congr (h : Filed p P) (hPQ : ∀ i, Q i ↔ P i) : Filed p Q :=
  ⟨h.canonical, h.arrivals, fun i => (h.mem_canonical i).trans (hPQ i).symm,
    fun i => (h.mem_arrivals i).trans (hPQ i).symm⟩

/-- One document is put in, in its places or at the end. -/
theorem Filed.insert (h : Filed p P) (hn : ¬ P n) (hQ : ∀ i, Q i ↔ i = n ∨ P i) (sorted : Bool) :
    Filed (if sorted then p.insert n documents else p.push n) Q := by
  have hcanonical : n ∉ p.canonical := fun hmem => hn ((h.mem_canonical n).mp hmem)
  have harrivals : n ∉ p.arrivals := fun hmem => hn ((h.mem_arrivals n).mp hmem)
  cases sorted with
  | true =>
    have hc : (p.insert n documents).canonical.Perm (n :: p.canonical) := place_perm
    have ha : (p.insert n documents).arrivals.Perm (n :: p.arrivals) := place_perm
    refine ⟨hc.nodup_iff.mpr (List.nodup_cons.mpr ⟨hcanonical, h.canonical⟩),
      ha.nodup_iff.mpr (List.nodup_cons.mpr ⟨harrivals, h.arrivals⟩), fun i => ?_, fun i => ?_⟩
    · rw [hQ, ← h.mem_canonical]
      exact hc.mem_iff.trans List.mem_cons
    · rw [hQ, ← h.mem_arrivals]
      exact ha.mem_iff.trans List.mem_cons
  | false =>
    have hpush : ∀ v : List Nat, (v ++ [n]).Perm (n :: v) := fun v => List.perm_append_singleton n v
    refine ⟨(hpush _).nodup_iff.mpr (List.nodup_cons.mpr ⟨hcanonical, h.canonical⟩),
      (hpush _).nodup_iff.mpr (List.nodup_cons.mpr ⟨harrivals, h.arrivals⟩), fun i => ?_, fun i => ?_⟩
    · rw [hQ, ← h.mem_canonical]
      exact (hpush _).mem_iff.trans List.mem_cons
    · rw [hQ, ← h.mem_arrivals]
      exact (hpush _).mem_iff.trans List.mem_cons

/-- A document with a place of its own keeps a posting in order. -/
theorem Ordered.insert (h : Ordered documents p) (hfiled : Filed p P) (hP : ∀ i, P i → i < documents.length)
    (hkey : ∀ i, P i → (documentAt documents i).1 ≠ x.1) (hindex : ∀ i, P i → (documentAt documents i).2 ≠ x.2) :
    Ordered (documents ++ [x]) (p.insert documents.length (documents ++ [x])) := by
  have hold : ∀ i, P i → documentAt (documents ++ [x]) i = documentAt documents i := fun i hi =>
    documentAt_append (hP i hi)
  have hcanonical : Lists (fun i j => (documentAt (documents ++ [x]) i).1 < (documentAt (documents ++ [x]) j).1)
      p.canonical P := by
    refine ⟨h.canonical.imp_of_mem fun {i j} hi hj hij => ?_, hfiled.mem_canonical⟩
    rwa [hold i ((hfiled.mem_canonical i).mp hi), hold j ((hfiled.mem_canonical j).mp hj)]
  have harrivals : Lists (fun i j => (documentAt (documents ++ [x]) i).2 < (documentAt (documents ++ [x]) j).2)
      p.arrivals P := by
    refine ⟨h.arrivals.imp_of_mem fun {i j} hi hj hij => ?_, hfiled.mem_arrivals⟩
    rwa [hold i ((hfiled.mem_arrivals i).mp hi), hold j ((hfiled.mem_arrivals j).mp hj)]
  refine ⟨(hcanonical.place (fun _ _ _ => lt_trans) (fun i hi => ?_) fun _ => Iff.rfl).sorted,
    (harrivals.place (fun _ _ _ => Nat.lt_trans) (fun i hi => ?_) fun _ => Iff.rfl).sorted⟩
  · rw [hold i hi, documentAt_last]
    exact lt_or_gt_of_ne (hkey i hi)
  · rw [hold i hi, documentAt_last]
    exact Nat.lt_or_gt_of_ne (hindex i hi)

/-- Another document does not disturb a posting. -/
theorem Ordered.append (h : Ordered documents p) (hfiled : Filed p P) (hP : ∀ i, P i → i < documents.length) :
    Ordered (documents ++ [x]) p := by
  refine ⟨h.canonical.imp_of_mem fun {i j} hi hj hij => ?_, h.arrivals.imp_of_mem fun {i j} hi hj hij => ?_⟩
  · rwa [documentAt_append (hP i ((hfiled.mem_canonical i).mp hi)),
      documentAt_append (hP j ((hfiled.mem_canonical j).mp hj))]
  · rwa [documentAt_append (hP i ((hfiled.mem_arrivals i).mp hi)),
      documentAt_append (hP j ((hfiled.mem_arrivals j).mp hj))]

theorem Filed.sort (h : Filed p P) : Filed (p.sort documents) P :=
  ⟨sortByKey_perm.nodup_iff.mpr h.canonical, sortByKey_perm.nodup_iff.mpr h.arrivals,
    fun i => mem_sortByKey.trans (h.mem_canonical i), fun i => mem_sortByKey.trans (h.mem_arrivals i)⟩

/-- Sorting puts a posting in order, where no two documents have one place. -/
theorem Filed.ordered (h : Filed p P)
    (hkey : ∀ i j, P i → P j → (documentAt documents i).1 = (documentAt documents j).1 → i = j)
    (hindex : ∀ i j, P i → P j → (documentAt documents i).2 = (documentAt documents j).2 → i = j) :
    Ordered documents (p.sort documents) := by
  have hsorted : Filed (p.sort documents) P := h.sort
  refine ⟨?_, ?_⟩
  · refine (pairwise_sortByKey.and hsorted.canonical).imp_of_mem fun {i j} hi hj hij => ?_
    refine lt_of_le_of_ne hij.1 fun heq => hij.2 (hkey i j ?_ ?_ heq)
    · exact (hsorted.mem_canonical i).mp hi
    · exact (hsorted.mem_canonical j).mp hj
  · refine (pairwise_sortByKey.and hsorted.arrivals).imp_of_mem fun {i j} hi hj hij => ?_
    refine lt_of_le_of_ne hij.1 fun heq => hij.2 (hindex i j ?_ ?_ heq)
    · exact (hsorted.mem_arrivals i).mp hi
    · exact (hsorted.mem_arrivals j).mp hj

end

/-! ## The index of a conversation -/

section

variable [Externals] [Segments]

/-- An index holds the readable events of a conversation whose places are among `D`. -/
structure Covers (events : List Published) (cid : String) (D : Nat → Prop) (c : ConversationSearch) : Prop where
  documents : ∀ x, x ∈ c.documents ↔ D x.2 ∧ PlacedAt events (readableOf cid) Published.cursor x
  nodup : c.documents.Nodup
  senders : ∀ sender, Filed (entryD c.senders sender {})
    (Holds events c.documents fun p => strv p.event["actor"] "id" = sender)
  words : ∀ word, Filed (entryD c.words word {})
    (Holds events c.documents fun p => word ∈ words (strv p.event "body"))

/-- Every posting of an index is in order. -/
structure Sorted (c : ConversationSearch) : Prop where
  senders : ∀ sender, Ordered c.documents (entryD c.senders sender {})
  words : ∀ word, Ordered c.documents (entryD c.words word {})

/-- The index of a conversation, as a search needs it. -/
structure Exact (events : List Published) (cid : String) (c : ConversationSearch) : Prop where
  covers : Covers events cid (fun _ => True) c
  sorted : Sorted c

variable {events more : List Published} {cid : String} {D D' : Nat → Prop} {c : ConversationSearch} {i : Nat}
  {e : Published}

omit [Externals] [Segments] in
/-- Updating each of some entries once. -/
theorem entryD_foldl_upsert {α : Type} {f : α → α} {d : α} {ids : List String} (hnodup : ids.Nodup) {m : Map α}
    {k : String} : entryD (ids.foldl (fun m id => upsert m id d f) m) k d
      = if k ∈ ids then f (entryD m k d) else entryD m k d := by
  induction ids generalizing m with
  | nil => simp
  | cons id ids ih =>
    obtain ⟨hid, hrest⟩ := List.nodup_cons.mp hnodup
    rw [List.foldl_cons, ih hrest, entryD_upsert]
    by_cases hk : k = id
    · subst hk
      simp [hid]
    · simp [hk]

theorem mem_terms {text word : String} : word ∈ terms text ↔ word ∈ words text := by
  unfold terms
  rw [Std.ExtTreeSet.mem_toList, mem_ofList_iff]

theorem terms_nodup {text : String} : (terms text).Nodup := by
  unfold terms
  exact Std.ExtTreeSet.distinct_toList.imp fun hab heq => hab (compare_eq_iff_eq.mpr heq)

namespace Covers

theorem empty : Covers events cid (fun _ => False) {} := by
  have hnone : ∀ (q : Published → Prop) i, ¬ Holds events [] q i := by
    rintro q i ⟨x, p, hx, -⟩
    cases hx
  refine ⟨fun x => iff_of_false List.not_mem_nil fun h => h.1, List.nodup_nil, fun sender => ?_, fun word => ?_⟩
  · exact filed_empty (hnone _)
  · exact filed_empty (hnone _)

theorem congr (h : Covers events cid D c)
    (hD : ∀ i p, events[i]? = some p → readableOf cid p.event = true → (D' i ↔ D i)) : Covers events cid D' c := by
  refine ⟨fun x => ?_, h.nodup, h.senders, h.words⟩
  rw [h.documents]
  refine ⟨fun ⟨hd, hx⟩ => ⟨?_, hx⟩, fun ⟨hd, hx⟩ => ⟨?_, hx⟩⟩
  · obtain ⟨p, hp, hr, -⟩ := hx
    exact (hD _ _ hp hr).mpr hd
  · obtain ⟨p, hp, hr, -⟩ := hx
    exact (hD _ _ hp hr).mp hd

theorem refers (h : Covers events cid D c) : Refers events c.documents := by
  intro x hx
  obtain ⟨-, p, hp, -, hkey⟩ := (h.documents x).mp hx
  exact ⟨p, hp, hkey⟩

/-- Later events leave an index of earlier ones as it is. -/
theorem append (h : Covers events cid D c) (hD : ∀ i, D i → i < events.length) :
    Covers (events ++ more) cid D c := by
  refine ⟨fun x => ?_, h.nodup, fun sender => (h.senders sender).congr fun i => holds_append h.refers,
    fun word => (h.words word).congr fun i => holds_append h.refers⟩
  rw [h.documents]
  refine and_congr_right fun hd => ?_
  unfold PlacedAt
  rw [List.getElem?_append_left (hD _ hd)]

/-- One more event is copied. -/
theorem copied (h : Covers events cid D c) (he : events[i]? = some e) (hr : readableOf cid e.event = true)
    (hD : ¬ D i) (sorted : Bool) : Covers events cid (fun j => j = i ∨ D j) (c.copied e i sorted) := by
  have hnew : (e.cursor, i) ∉ c.documents := fun hmem => hD ((h.documents _).mp hmem).1
  have hlast : ∀ q : Published → Prop, ¬ Holds events c.documents q c.documents.length := fun q hq =>
    Nat.lt_irrefl _ (holds_lt hq)
  have hsnoc : ∀ (q : Published → Prop) j, Holds events (c.copied e i sorted).documents q j ↔
      j = c.documents.length ∧ q e ∨ Holds events c.documents q j := fun q j =>
    holds_snoc (x := (e.cursor, i)) he
  -- the new document comes last, and is filed where its event has the term
  refine ⟨fun x => ?_, ?_, fun sender => ?_, fun word => ?_⟩
  · show x ∈ c.documents ++ [(e.cursor, i)] ↔ _
    rw [List.mem_append, List.mem_singleton, h.documents]
    constructor
    · rintro (⟨hd, hx⟩ | rfl)
      · exact ⟨.inr hd, hx⟩
      · exact ⟨.inl rfl, e, he, hr, rfl⟩
    · rintro ⟨rfl | hd, p, hp, hreadable, hkey⟩
      · obtain rfl := Option.some.inj (he.symm.trans hp)
        exact .inr (Prod.ext hkey.symm rfl)
      · exact .inl ⟨hd, p, hp, hreadable, hkey⟩
  · show (c.documents ++ [(e.cursor, i)]).Nodup
    rw [List.nodup_append]
    refine ⟨h.nodup, List.nodup_singleton _, fun x hx y hy heq => hnew ?_⟩
    rw [← List.mem_singleton.mp hy, ← heq]
    exact hx
  · show Filed (entryD (upsert c.senders (strv e.event["actor"] "id") {} _) sender {}) _
    rw [entryD_upsert]
    split
    · rename_i hsender
      rw [← hsender]
      refine (h.senders sender).insert (hlast _) (fun j => ?_) sorted
      rw [hsnoc]
      simp [hsender]
    · rename_i hsender
      refine (h.senders sender).congr fun j => ?_
      rw [hsnoc]
      refine or_iff_right fun hj => hsender hj.2.symm
  · show Filed (entryD ((terms (strv e.event "body")).foldl _ c.words) word {}) _
    rw [entryD_foldl_upsert terms_nodup]
    split
    · rename_i hword
      refine (h.words word).insert (hlast _) (fun j => ?_) sorted
      rw [hsnoc]
      simp [mem_terms.mp hword]
    · rename_i hword
      refine (h.words word).congr fun j => ?_
      rw [hsnoc]
      exact or_iff_right fun hj => hword (mem_terms.mpr hj.2)

/-- No document has the place of an event that was not copied. -/
theorem other (h : Covers events cid D c) (hkeyed : Keyed events) (he : events[i]? = some e) (hD : ¬ D i)
    {q : Published → Prop} {j : Nat} (hj : Holds events c.documents q j) :
    (documentAt c.documents j).1 ≠ e.cursor ∧ (documentAt c.documents j).2 ≠ i := by
  obtain ⟨x, p, hx, hp, -⟩ := hj
  have hmem := (h.documents x).mp (List.mem_of_getElem? hx)
  obtain ⟨hd, r, hr, -, hkey⟩ := hmem
  rw [documentAt_of hx]
  refine ⟨fun heq => hD ?_, fun heq => hD (heq ▸ hd)⟩
  rw [← hkeyed x.2 i r e hr he (hkey.trans heq)]
  exact hd

/-- Two documents have two places. -/
theorem injective (h : Covers events cid D c) (hkeyed : Keyed events) {q : Published → Prop} {j k : Nat}
    (hj : Holds events c.documents q j) (hk : Holds events c.documents q k) :
    ((documentAt c.documents j).1 = (documentAt c.documents k).1 → j = k)
      ∧ ((documentAt c.documents j).2 = (documentAt c.documents k).2 → j = k) := by
  obtain ⟨x, p, hx, hp, -⟩ := hj
  obtain ⟨y, r, hy, hr, -⟩ := hk
  obtain ⟨-, p', hp', -, hxkey⟩ := (h.documents x).mp (List.mem_of_getElem? hx)
  obtain ⟨-, r', hr', -, hykey⟩ := (h.documents y).mp (List.mem_of_getElem? hy)
  -- a document is told by its place and by its event, and an event by its place
  have hsame : x = y → j = k := by
    rintro rfl
    obtain ⟨hjlt, hjx⟩ := List.getElem?_eq_some_iff.mp hx
    obtain ⟨hklt, hkx⟩ := List.getElem?_eq_some_iff.mp hy
    exact (List.Nodup.getElem_inj_iff h.nodup).mp (hjx.trans hkx.symm)
  rw [documentAt_of hx, documentAt_of hy]
  refine ⟨fun heq => hsame (Prod.ext heq ?_), fun heq => hsame (Prod.ext ?_ heq)⟩
  · exact hkeyed x.2 y.2 p' r' hp' hr' (hxkey.trans (heq.trans hykey.symm))
  · rw [heq] at hp'
    obtain rfl := Option.some.inj (hp'.symm.trans hr')
    exact hxkey.symm.trans hykey

end Covers

/-- One more event goes to its places. -/
theorem Sorted.copied (h : Sorted c) (hcovers : Covers events cid D c) (hkeyed : Keyed events)
    (he : events[i]? = some e) (hD : ¬ D i) : Sorted (c.copied e i true) := by
  have hlt : ∀ (q : Published → Prop) j, Holds events c.documents q j → j < c.documents.length :=
    fun q j => holds_lt
  have hkey : ∀ (q : Published → Prop) j, Holds events c.documents q j →
      (documentAt c.documents j).1 ≠ e.cursor := fun q j hj => (hcovers.other hkeyed he hD hj).1
  have hindex : ∀ (q : Published → Prop) j, Holds events c.documents q j →
      (documentAt c.documents j).2 ≠ i := fun q j hj => (hcovers.other hkeyed he hD hj).2
  refine ⟨fun sender => ?_, fun word => ?_⟩
  · show Ordered (c.documents ++ [(e.cursor, i)]) (entryD (upsert c.senders _ {} _) sender {})
    rw [entryD_upsert]
    split
    · rename_i hsender
      rw [← hsender]
      exact (h.senders sender).insert (hcovers.senders sender) (hlt _) (hkey _) (hindex _)
    · exact (h.senders sender).append (hcovers.senders sender) (hlt _)
  · show Ordered (c.documents ++ [(e.cursor, i)]) (entryD ((terms _).foldl _ c.words) word {})
    rw [entryD_foldl_upsert terms_nodup]
    split
    · exact (h.words word).insert (hcovers.words word) (hlt _) (hkey _) (hindex _)
    · exact (h.words word).append (hcovers.words word) (hlt _)

omit [Externals] [Segments] in
/-- Sorting each posting sorts the one of a term. -/
theorem entryD_sort {m : Map Posting} {documents : List Document} {k : String} :
    entryD (m.map fun _ p => p.sort documents) k {} = (entryD m k {}).sort documents := by
  unfold entryD
  rw [Std.ExtTreeMap.getElem?_map]
  cases m[k]? with
  | none => simp [Posting.sort, sortByKey]
  | some p => rfl

/-- Sorting the postings of an index changes nothing else. -/
theorem Covers.sort (h : Covers events cid D c) : Covers events cid D c.sort := by
  refine ⟨h.documents, h.nodup, fun sender => ?_, fun word => ?_⟩
  · show Filed (entryD (c.senders.map _) sender {}) _
    rw [entryD_sort]
    exact (h.senders sender).sort
  · show Filed (entryD (c.words.map _) word {}) _
    rw [entryD_sort]
    exact (h.words word).sort

theorem Covers.sorted (h : Covers events cid D c) (hkeyed : Keyed events) : Sorted c.sort := by
  refine ⟨fun sender => ?_, fun word => ?_⟩
  · show Ordered c.documents (entryD (c.senders.map _) sender {})
    rw [entryD_sort]
    exact (h.senders sender).ordered (fun i j hi hj => (h.injective hkeyed hi hj).1)
      fun i j hi hj => (h.injective hkeyed hi hj).2
  · show Ordered c.documents (entryD (c.words.map _) word {})
    rw [entryD_sort]
    exact (h.words word).ordered (fun i j hi hj => (h.injective hkeyed hi hj).1)
      fun i j hi hj => (h.injective hkeyed hi hj).2

/-! ## Copied events -/

variable {l : List Nat}

/-- The places of readable events of a conversation. -/
def Readable (events : List Published) (cid : String) (l : List Nat) : Prop :=
  ∀ i ∈ l, ∃ p, events[i]? = some p ∧ readableOf cid p.event = true

/-- Indexing a batch of copied events. -/
theorem Covers.batch (h : Covers events cid D c) (hl : Readable events cid l) (hnodup : l.Nodup)
    (hD : ∀ i ∈ l, ¬ D i) (sorted : Bool) :
    Covers events cid (fun j => j ∈ l ∨ D j)
        (l.foldl (fun c i => (events[i]?).elim c fun e => c.copied e i sorted) c)
      ∧ (sorted = true → Keyed events → Sorted c →
        Sorted (l.foldl (fun c i => (events[i]?).elim c fun e => c.copied e i sorted) c)) := by
  induction l generalizing c D with
  | nil => exact ⟨h.congr fun _ _ _ _ => by simp, fun _ _ hsorted => hsorted⟩
  | cons i l ih =>
    obtain ⟨e, he, hr⟩ := hl i List.mem_cons_self
    obtain ⟨hi, hrest⟩ := List.nodup_cons.mp hnodup
    have hfirst := hD i List.mem_cons_self
    -- no event of the rest was copied yet, nor is it the first
    have hnew : ∀ j ∈ l, ¬ (j = i ∨ D j) := by
      rintro j hj (rfl | hd)
      · exact hi hj
      · exact hD j (List.mem_cons_of_mem _ hj) hd
    rw [List.foldl_cons, he]
    obtain ⟨hcovers, hsorted⟩ := ih (h.copied he hr hfirst sorted)
      (fun j hj => hl j (List.mem_cons_of_mem _ hj)) hrest hnew
    refine ⟨hcovers.congr fun j _ _ _ => ?_, fun htrue hkeyed hs => ?_⟩
    · rw [List.mem_cons]
      tauto
    · subst htrue
      exact hsorted rfl hkeyed (hs.copied h hkeyed he hfirst)

/-! ## Publications -/

/-- Every index in use is exact. -/
def Warm (events : List Published) (warm : Map ConversationSearch) : Prop :=
  ∀ cid c, warm[cid]? = some c → Exact events cid c

variable {warm : Map ConversationSearch}

/-- An event of another conversation, or one that nobody reads, leaves an index exact. -/
theorem Exact.past (h : Exact events cid c) (hr : readableOf cid e.event = false) :
    Exact (events ++ [e]) cid c := by
  -- an exact index covers whatever has come so far
  have hold : Covers events cid (fun i => i < events.length) c :=
    h.covers.congr fun i p hp _ => iff_of_true (List.getElem?_eq_some_iff.mp hp).1 trivial
  refine ⟨(hold.append fun i hi => hi).congr fun i p hp hreadable => iff_of_true trivial ?_, h.sorted⟩
  have hlt := (List.getElem?_eq_some_iff.mp hp).1
  rw [List.length_append, List.length_singleton] at hlt
  rcases Nat.lt_or_ge i events.length with hi | hi
  · exact hi
  · have hlast : i = events.length := by omega
    subst hlast
    rw [List.getElem?_append_right (Nat.le_refl _), Nat.sub_self] at hp
    obtain rfl := Option.some.inj hp
    rw [hr] at hreadable
    cases hreadable

/-- A readable event joins the index of its conversation. -/
theorem Exact.index (h : Exact events cid c) (hkeyed : Keyed (events ++ [e]))
    (hr : readableOf cid e.event = true) : Exact (events ++ [e]) cid (c.index e events.length) := by
  have hold : Covers events cid (fun i => i < events.length) c :=
    h.covers.congr fun i p hp _ => iff_of_true (List.getElem?_eq_some_iff.mp hp).1 trivial
  have hthere : Covers (events ++ [e]) cid (fun i => i < events.length) c := hold.append fun i hi => hi
  have he : (events ++ [e])[events.length]? = some e := by simp
  have hnew : ¬ events.length < events.length := Nat.lt_irrefl _
  refine ⟨(hthere.copied he hr hnew true).congr fun i p hp _ => iff_of_true trivial ?_,
    h.sorted.copied hthere hkeyed he hnew⟩
  have hlt := (List.getElem?_eq_some_iff.mp hp).1
  rw [List.length_append, List.length_singleton] at hlt
  omega

theorem Warm.indexEvent (h : Warm events warm) (hkeyed : Keyed (events ++ [e])) :
    Warm (events ++ [e]) (indexEvent warm e events.length) := by
  intro cid c hc
  unfold Search.indexEvent at hc
  simp only at hc
  -- only the index of the event's own conversation is touched
  by_cases hcid : cid = strv e.event "conversation_id"
  · subst hcid
    cases hold : warm[strv e.event "conversation_id"]? with
    | none =>
      rw [hold] at hc
      simp only [hold] at hc
      cases hc
    | some old =>
      rw [hold] at hc
      simp only at hc
      split at hc
      · rename_i hreadable
        rw [getElem?_insert_map, if_pos rfl] at hc
        obtain rfl := Option.some.inj hc
        exact (h _ old hold).index hkeyed (readableOf_iff.mpr ⟨hreadable, rfl⟩)
      · rename_i hreadable
        obtain rfl := Option.some.inj (hold.symm.trans hc)
        refine (h _ old hold).past (Bool.eq_false_iff.mpr fun hr => hreadable ?_)
        exact (readableOf_iff.mp hr).1
  · have hother : readableOf cid e.event = false :=
      Bool.eq_false_iff.mpr fun hr => hcid (readableOf_iff.mp hr).2.symm
    refine (h cid c ?_).past hother
    split at hc
    · split at hc
      · rwa [getElem?_insert_map, if_neg hcid] at hc
      · exact hc
    · exact hc

/-- Every publication joins the indexes in use. -/
theorem Warm.indexEvents (h : Warm events warm) (hkeyed : Keyed (events ++ more)) :
    Warm (events ++ more) (indexEvents warm events.length more) := by
  induction more generalizing events warm with
  | nil =>
    rw [List.append_nil]
    exact h
  | cons e more ih =>
    -- the events are numbered on from the end of the history
    have hsplit : events ++ e :: more = (events ++ [e]) ++ more := by simp
    rw [hsplit] at hkeyed ⊢
    have hnext := ih (h.indexEvent hkeyed.front) hkeyed
    rw [List.length_append, List.length_singleton] at hnext
    exact hnext

/-! ## Under construction -/

/-- The event was there when the construction began, and its place lies before its progress. -/
def Passed (events : List Published) (fence : Nat) (after : Option ReadCursor) (i : Nat) : Prop :=
  i < fence ∧ ∃ p k, events[i]? = some p ∧ after = some k ∧ p.cursor ≤ k

/-- The first phase: of the events that were there at first, those passed are indexed. -/
structure Copying (events : List Published) (b : Build) : Prop where
  fence : b.fence ≤ events.length
  delta : b.delta = b.fence
  upper : ∀ i p, i < b.fence → events[i]? = some p → readableOf b.cid p.event = true →
    ∃ u, b.upper = some u ∧ p.cursor ≤ u
  covers : Covers events b.cid (Passed events b.fence b.after) b.index

/-- The second phase: every event up to one of the history is indexed. -/
structure Following (events : List Published) (b : Build) : Prop where
  delta : b.delta ≤ events.length
  covers : Covers events b.cid (fun i => i < b.delta) b.index
  sorted : Sorted b.index

variable {b : Build}

theorem Copying.append (h : Copying events b) : Copying (events ++ more) b := by
  have hfence := h.fence
  -- what comes later lies beyond the fence, so that the first phase does not see it
  have hsame : ∀ i, i < b.fence → (events ++ more)[i]? = events[i]? := fun i hi =>
    List.getElem?_append_left (by omega)
  refine ⟨by rw [List.length_append]; omega, h.delta, fun i p hi hp => ?_, ?_⟩
  · rw [hsame i hi] at hp
    exact h.upper i p hi hp
  · refine (h.covers.append fun i hi => by have := hi.1; omega).congr fun i p _ _ => ?_
    unfold Passed
    refine and_congr_right fun hi => ?_
    rw [hsame i hi]

theorem Following.append (h : Following events b) : Following (events ++ more) b := by
  have hdelta := h.delta
  refine ⟨by rw [List.length_append]; omega, h.covers.append fun i hi => ?_, h.sorted⟩
  have hlt : i < b.delta := hi
  omega

/-- Where the history ends, a construction is an index. -/
theorem Following.exact (h : Following events b) (hend : b.delta = events.length) :
    Exact events b.cid b.index := by
  refine ⟨h.covers.congr fun i p hp _ => iff_of_true trivial ?_, h.sorted⟩
  rw [hend]
  exact (List.getElem?_eq_some_iff.mp hp).1

/-! ## The worker -/

variable {s t : Store} {timeline : List Document} {stop : Nat → Bool}

omit [Externals] [Segments] in
/-- A batch comes past a front of the entries, and copies those that were there at first. -/
theorem batch_spec {fence visited : Nat} {upper after : Option ReadCursor} {copied : List Nat} :
    ∃ front rest, timeline = front ++ rest
      ∧ (Build.batch fence upper stop visited after copied timeline).1 = (front.getLast?.map Prod.fst).or after
      ∧ (Build.batch fence upper stop visited after copied timeline).2.1
        = copied ++ (front.filter fun x => decide (x.2 < fence)).map Prod.snd
      ∧ ((Build.batch fence upper stop visited after copied timeline).2.2 = true →
        ∀ x, rest.head? = some x → upper.all (· < x.1) = true) := by
  induction timeline generalizing visited after copied with
  | nil => exact ⟨[], [], rfl, by simp [Build.batch], by simp [Build.batch], fun _ x hx => by cases hx⟩
  | cons x timeline ih =>
    obtain ⟨key, i⟩ := x
    rw [Build.batch]
    split
    · rename_i hupper
      refine ⟨[], (key, i) :: timeline, rfl, by simp, by simp, fun _ x hx => ?_⟩
      obtain rfl := Option.some.inj hx
      exact hupper
    split
    -- the batch is full
    · exact ⟨[], (key, i) :: timeline, rfl, by simp, by simp, nofun⟩
    · obtain ⟨front, rest, rfl, hafter, hcopied, hdone⟩ := @ih (visited + 1) (some key)
        (if i < fence then copied ++ [i] else copied)
      refine ⟨(key, i) :: front, rest, rfl, ?_, ?_, hdone⟩
      · rw [hafter]
        cases hlast : front.getLast? with
        | none =>
          rw [List.getLast?_eq_none_iff.mp hlast]
          rfl
        | some x =>
          obtain ⟨init, rfl⟩ := List.getLast?_eq_some_iff.mp hlast
          rw [← List.cons_append, List.getLast?_concat]
          rfl
      · rw [hcopied]
        by_cases hi : i < fence <;> simp [hi]

/-- The timeline of a conversation. -/
def timelineOf (s : Store) (cid : String) : List Document :=
  (entryD s.readModel.conversations cid {}).timeline

omit [Externals] [Segments] in
/-- A timeline orders by place alone. -/
theorem timeline_sorted (hindexed : Indexed s) (ht : Tallied s) :
    (timelineOf s cid).Pairwise fun x y => x.1 < y.1 := by
  have hlists := (ht cid).timeline
  have hnodup := placed_nodup hindexed hlists
  refine (hlists.sorted.and (List.pairwise_map.mp hnodup)).imp fun hxy => ?_
  exact hxy.1.resolve_right fun heq => hxy.2 heq.1

omit [Externals] [Segments] in
theorem mem_timeline (ht : Tallied s) {x : Document} :
    x ∈ timelineOf s cid ↔ PlacedAt s.events (readableOf cid) Published.cursor x :=
  (ht cid).timeline.mem_iff x

theorem Copying.new (hindexed : Indexed s) (ht : Tallied s) : Copying s.events (.new s cid) := by
  refine ⟨Nat.le_refl _, rfl, fun i p hi hp hr => ?_, ?_⟩
  · have hmem : (p.cursor, i) ∈ timelineOf s cid := (mem_timeline ht).mpr ⟨p, hp, hr, rfl⟩
    have hne : timelineOf s cid ≠ [] := List.ne_nil_of_mem hmem
    -- the last entry of the timeline bounds every readable event there is
    have hlast := List.getLast?_eq_some_getLast hne
    obtain ⟨init, hinit⟩ := List.getLast?_eq_some_iff.mp hlast
    refine ⟨((timelineOf s cid).getLast hne).1, ?_, ?_⟩
    · show (timelineOf s cid).getLast?.map Prod.fst = _
      rw [hlast]
      rfl
    · have hsorted : (timelineOf s cid).Pairwise fun x y => x.1 < y.1 := timeline_sorted hindexed ht
      rw [hinit] at hsorted hmem
      rcases List.mem_append.mp hmem with hmem | hmem
      · exact ((List.pairwise_append.mp hsorted).2.2 _ hmem _ (List.mem_singleton.mpr rfl)).le
      · rw [← List.mem_singleton.mp hmem]
  · refine Covers.empty.congr fun i p hp _ => iff_of_false ?_ id
    rintro ⟨-, p, k, -, hk, -⟩
    cases hk

/-- A batch of the first phase: the entries that it came past and those that it left, where it ended, and what
it copied. -/
structure Batched (s : Store) (b : Build) (front rest : List Document) (after : Option ReadCursor)
    (copied : List Nat) (last : Bool) : Prop where
  sorted : (front ++ rest).Pairwise fun x y => x.1 < y.1
  ahead : ∀ x, x ∈ front ++ rest ↔ PlacedAt s.events (readableOf b.cid) Published.cursor x
    ∧ ∀ k, b.after = some k → k < x.1
  reached : after = (front.getLast?.map Prod.fst).or b.after
  copies : copied = (front.filter fun x => decide (x.2 < b.fence)).map Prod.snd
  ends : last = true → ∀ x, rest.head? = some x → b.upper.all (· < x.1) = true

/-- A snapshot takes the entries of the timeline behind the progress. -/
theorem snapshot_batched (hindexed : Indexed s) (ht : Tallied s) (stop : Nat → Bool) :
    ∃ front rest after copied last, Batched s b front rest after copied last
      ∧ b.snapshot s stop = ({ b with after := after }.indexed s copied false, last) := by
  have hsorted : (timelineOf s b.cid).Pairwise fun x y => x.1 < y.1 := timeline_sorted hindexed ht
  obtain ⟨front, rest, hentries, hafter, hcopied, hdone⟩ := @batch_spec
    ((timelineOf s b.cid).drop (b.after.elim 0 fun key =>
      partitionPoint (fun x => decide (x.1 ≤ key)) (timelineOf s b.cid))) stop b.fence 0 b.upper b.after []
  rw [drop_behind hsorted] at hentries
  rw [List.nil_append] at hcopied
  refine ⟨front, rest, _, _, _, ⟨hentries ▸ hsorted.filter _, fun x => ?_, hafter, hcopied, hdone⟩, rfl⟩
  rw [← hentries, List.mem_filter, mem_timeline ht]
  refine and_congr_right fun _ => ?_
  unfold behind
  cases b.after with
  | none => simp
  | some k => simp

section

variable {front rest : List Document} {after : Option ReadCursor} {copied : List Nat} {last : Bool}
  {p : Published} {x : Document}

omit [Externals] [Segments] in
theorem Batched.mem_copied (h : Batched s b front rest after copied last) :
    i ∈ copied ↔ ∃ x ∈ front, x.2 = i ∧ i < b.fence := by
  rw [h.copies, List.mem_map]
  constructor
  · rintro ⟨x, hx, rfl⟩
    obtain ⟨hx, hlt⟩ := List.mem_filter.mp hx
    exact ⟨x, hx, rfl, of_decide_eq_true hlt⟩
  · rintro ⟨x, hx, rfl, hlt⟩
    exact ⟨x, List.mem_filter.mpr ⟨hx, decide_eq_true hlt⟩, rfl⟩

omit [Externals] [Segments] in
/-- What the batch came past was placed there, ahead of the progress. -/
theorem Batched.placed (h : Batched s b front rest after copied last) (hx : x ∈ front) :
    PlacedAt s.events (readableOf b.cid) Published.cursor x ∧ ∀ k, b.after = some k → k < x.1 :=
  (h.ahead x).mp (List.mem_append_left _ hx)

omit [Externals] [Segments] in
/-- The new progress is no less than what the batch came past. -/
theorem Batched.upto (h : Batched s b front rest after copied last) (hx : x ∈ front) :
    ∃ k, after = some k ∧ x.1 ≤ k := by
  have hlast := List.getLast?_eq_some_getLast (List.ne_nil_of_mem hx)
  obtain ⟨init, hinit⟩ := List.getLast?_eq_some_iff.mp hlast
  have hfront := (List.pairwise_append.mp h.sorted).1
  refine ⟨_, by rw [h.reached, hlast]; rfl, ?_⟩
  rw [hinit] at hx hfront
  rcases List.mem_append.mp hx with hx | hx
  · exact ((List.pairwise_append.mp hfront).2.2 _ hx _ (List.mem_singleton.mpr rfl)).le
  · rw [← List.mem_singleton.mp hx]

omit [Externals] [Segments] in
/-- What is left lies behind the new progress. -/
theorem Batched.beyond (h : Batched s b front rest after copied last) (hx : x ∈ rest) :
    ∀ k, after = some k → k < x.1 := by
  intro k hk
  rw [h.reached] at hk
  cases hlast : front.getLast? with
  | none =>
    rw [hlast] at hk
    exact ((h.ahead x).mp (List.mem_append_right _ hx)).2 k hk
  | some y =>
    rw [hlast] at hk
    obtain rfl := Option.some.inj hk
    exact (List.pairwise_append.mp h.sorted).2.2 y (List.mem_of_getLast? hlast) x hx

omit [Externals] [Segments] in
/-- The progress does not go back. -/
theorem Batched.onward (h : Batched s b front rest after copied last) {k : ReadCursor} (hk : b.after = some k) :
    ∃ k', after = some k' ∧ k ≤ k' := by
  cases hlast : front.getLast? with
  | none => exact ⟨k, by rw [h.reached, hlast]; exact hk, le_refl k⟩
  | some x =>
    obtain ⟨k', hk', hle⟩ := h.upto (List.mem_of_getLast? hlast)
    exact ⟨k', hk', ((h.placed (List.mem_of_getLast? hlast)).2 k hk).le.trans hle⟩

omit [Externals] [Segments] in
/-- The new progress has passed what the old one had, and what was copied. -/
theorem Batched.passed (h : Batched s b front rest after copied last) (hp : s.events[i]? = some p)
    (hr : readableOf b.cid p.event = true) :
    Passed s.events b.fence after i ↔ i ∈ copied ∨ Passed s.events b.fence b.after i := by
  constructor
  · rintro ⟨hi, p', k, hp', hk, hle⟩
    obtain rfl := Option.some.inj (hp'.symm.trans hp)
    -- it was passed before, or is an entry in front of the new progress
    by_cases hold : ∀ a, b.after = some a → a < p'.cursor
    · rcases List.mem_append.mp ((h.ahead (p'.cursor, i)).mpr ⟨⟨p', hp, hr, rfl⟩, hold⟩) with hfront | hrest
      · exact .inl (h.mem_copied.mpr ⟨_, hfront, rfl, hi⟩)
      · exact absurd hle (not_le.mpr (h.beyond hrest k hk))
    · simp only [not_forall, not_lt] at hold
      obtain ⟨a, ha, hle⟩ := hold
      exact .inr ⟨hi, p', a, hp, ha, hle⟩
  · rintro (hcopied | ⟨hi, p', k, hp', hk, hle⟩)
    · obtain ⟨x, hx, rfl, hi⟩ := h.mem_copied.mp hcopied
      obtain ⟨⟨p', hp', -, hkey⟩, -⟩ := h.placed hx
      obtain ⟨k, hk, hle⟩ := h.upto hx
      exact ⟨hi, p', k, hp', hk, hkey ▸ hle⟩
    · obtain ⟨k', hk', hle'⟩ := h.onward hk
      exact ⟨hi, p', k', hp', hk', hle.trans hle'⟩

omit [Externals] [Segments] in
theorem Batched.readable (h : Batched s b front rest after copied last) : Readable s.events b.cid copied := by
  intro i hi
  obtain ⟨x, hx, rfl, -⟩ := h.mem_copied.mp hi
  obtain ⟨⟨p, hp, hr, -⟩, -⟩ := h.placed hx
  exact ⟨p, hp, hr⟩

omit [Externals] [Segments] in
theorem Batched.nodup (h : Batched s b front rest after copied last) : copied.Nodup := by
  rw [h.copies]
  refine List.Nodup.map_on (fun x hx y hy hxy => ?_)
    (((List.pairwise_append.mp h.sorted).1.imp fun hxy => ne_of_apply_ne Prod.fst hxy.ne).filter _)
  obtain ⟨⟨p, hp, -, hpk⟩, -⟩ := h.placed (List.mem_of_mem_filter hx)
  obtain ⟨⟨q, hq, -, hqk⟩, -⟩ := h.placed (List.mem_of_mem_filter hy)
  rw [hxy] at hp
  obtain rfl := Option.some.inj (hp.symm.trans hq)
  exact Prod.ext (hpk.symm.trans hqk) hxy

omit [Externals] [Segments] in
/-- Nothing is copied twice. -/
theorem Batched.fresh (h : Batched s b front rest after copied last) (hi : i ∈ copied) :
    ¬ Passed s.events b.fence b.after i := by
  rintro ⟨-, p, k, hp, hk, hle⟩
  obtain ⟨x, hx, rfl, -⟩ := h.mem_copied.mp hi
  obtain ⟨⟨q, hq, -, hqk⟩, hahead⟩ := h.placed hx
  obtain rfl := Option.some.inj (hq.symm.trans hp)
  exact absurd (hqk ▸ hle) (not_le.mpr (hahead k hk))

omit [Externals] [Segments] in
/-- The last batch leaves only what lies beyond the last entry there was at first. -/
theorem Batched.complete (h : Batched s b front rest after copied true) (hp : s.events[i]? = some p)
    (hr : readableOf b.cid p.event = true) (hi : i < b.fence) {u : ReadCursor} (hu : b.upper = some u)
    (hle : p.cursor ≤ u) : Passed s.events b.fence after i := by
  by_contra hnot
  have hentry : (p.cursor, i) ∈ front ++ rest := by
    refine (h.ahead _).mpr ⟨⟨p, hp, hr, rfl⟩, fun k hk => not_le.mp fun hpk => hnot ?_⟩
    exact (h.passed hp hr).mpr (.inr ⟨hi, p, k, hp, hk, hpk⟩)
  rcases List.mem_append.mp hentry with hfront | hrest
  · exact hnot ((h.passed hp hr).mpr (.inl (h.mem_copied.mpr ⟨_, hfront, rfl, hi⟩)))
  · cases rest with
    | nil => cases hrest
    | cons first rest =>
      have hlt : u < first.1 := by
        have hbeyond := h.ends rfl first rfl
        rw [hu] at hbeyond
        simpa using hbeyond
      rcases List.mem_cons.mp hrest with heq | hrest
      · rw [← heq] at hlt
        exact absurd hle (not_le.mpr hlt)
      · have hlater := (List.pairwise_cons.mp (List.pairwise_append.mp h.sorted).2.1).1 _ hrest
        exact absurd hle (not_le.mpr (hlt.trans hlater))

end

/-- A batch of the first phase. -/
theorem Copying.snapshot (h : Copying s.events b) (hindexed : Indexed s) (ht : Tallied s) (stop : Nat → Bool) :
    Copying s.events (b.snapshot s stop).1 ∧ ((b.snapshot s stop).2 = true →
      ∀ i p, i < b.fence → s.events[i]? = some p → readableOf b.cid p.event = true →
        Passed s.events b.fence (b.snapshot s stop).1.after i) := by
  obtain ⟨front, rest, after, copied, last, hbatched, hsnapshot⟩ :=
    snapshot_batched (b := b) hindexed ht stop
  rw [hsnapshot]
  have hcovers := (h.covers.batch hbatched.readable hbatched.nodup (fun _ hi => hbatched.fresh hi) false).1
  refine ⟨⟨h.fence, h.delta, h.upper, hcovers.congr fun _ _ hp hr => hbatched.passed hp hr⟩, ?_⟩
  rintro rfl i p hi hp hr
  obtain ⟨u, hu, hle⟩ := h.upper i p hi hp hr
  exact hbatched.complete hp hr hi hu hle

theorem Copying.sorted (h : Copying s.events b) (hkeyed : Keyed s.events)
    (hall : ∀ i p, i < b.fence → s.events[i]? = some p → readableOf b.cid p.event = true →
      Passed s.events b.fence b.after i) : Following s.events { b with index := b.index.sort } := by
  refine ⟨h.delta ▸ h.fence, h.covers.sort.congr fun i p hp hr => ?_, h.covers.sorted hkeyed⟩
  show i < b.delta ↔ _
  rw [h.delta]
  exact ⟨fun hi => hall i p hi hp hr, fun hpassed => hpassed.1⟩

omit [Externals] [Segments] in
theorem reach_le {fuel visited : Nat} : Build.reach stop fuel visited ≤ visited + fuel := by
  induction fuel generalizing visited with
  | zero => exact Nat.le_refl _
  | succ fuel ih =>
    rw [Build.reach]
    split
    · omega
    · have := @ih (visited + 1)
      omega

/-- A batch of the second phase. -/
theorem Following.follow (h : Following s.events b) (hkeyed : Keyed s.events) :
    Following s.events (b.follow s stop) := by
  have hdelta := h.delta
  have hreach := @reach_le stop (min batchMessages (s.events.length - b.delta)) 0
  generalize hn : Build.reach stop (min batchMessages (s.events.length - b.delta)) 0 = n at hreach
  have hend : b.delta + n ≤ s.events.length := by omega
  generalize hl : (List.range' b.delta n).filter (fun i => (s.events[i]?).any fun e =>
    decide (strv e.event "conversation_id" = b.cid) && readableEvent e.event) = l
  have hfollow : b.follow s stop = { b with delta := b.delta + n }.indexed s l true := by
    unfold Build.follow
    simp only [hn, hl]
  have hmem : ∀ i, i ∈ l ↔ (b.delta ≤ i ∧ i < b.delta + n)
      ∧ ∃ p, s.events[i]? = some p ∧ readableOf b.cid p.event = true := by
    intro i
    rw [← hl, List.mem_filter, List.mem_range'_1]
    refine and_congr_right fun _ => ?_
    rw [Option.any_eq_true]
    refine exists_congr fun p => and_congr_right fun _ => ?_
    unfold readableOf
    rw [Bool.and_comm]
  have hreadable : Readable s.events b.cid l := fun i hi => ((hmem i).mp hi).2
  have hnodup : l.Nodup := hl ▸ (List.nodup_range' (s := b.delta) (n := n)).filter _
  have hnew : ∀ i ∈ l, ¬ i < b.delta := fun i hi => by
    have := ((hmem i).mp hi).1.1
    omega
  obtain ⟨hcovers, hsorted⟩ := h.covers.batch hreadable hnodup hnew true
  rw [hfollow]
  refine ⟨hend, hcovers.congr fun i p hp hr => ?_, hsorted rfl hkeyed h.sorted⟩
  show i < b.delta + n ↔ _
  rw [hmem]
  constructor
  · intro hi
    by_cases hold : i < b.delta
    · exact .inr hold
    · exact .inl ⟨⟨by omega, hi⟩, p, hp, hr⟩
  · rintro (⟨⟨-, hi⟩, -⟩ | hi)
    · exact hi
    · omega

/-! ## Runs -/

/-- What holds of a store and its indexes after any steps. -/
structure Sound (w : Searching) : Prop where
  opened : Opened w.store
  warm : Warm w.store.events w.warm
  copying : ∀ b, w.building = some (b, false) → Copying w.store.events b
  following : ∀ b, w.building = some (b, true) → Following w.store.events b

omit [Segments] in
theorem opened_call (hs : Opened s) (hcall : Store.Call s t) : Opened t := by
  obtain ⟨r, hfresh, hrun⟩ := hs.reached
  exact ⟨r, hfresh, hrun.tail hcall⟩

variable {w v : Searching} (huuid : MintsOnce)
  (hparse : ∀ v w, Externals.parse (Externals.compact v) = .ok w → w = v)

include huuid hparse

theorem Sound.keyed (h : Sound w) : Keyed w.store.events :=
  keyed_of_distinct (h.opened.tallied huuid hparse).indexed.distinct

/-- One step keeps every index exact, and every construction on its way. -/
theorem Sound.step (h : Sound w) (hstep : Searching.Step w v) : Sound v := by
  have hheld := h.opened.tallied huuid hparse
  have hkeyed := h.keyed huuid hparse
  cases hstep with
  | @call t hcall =>
    -- what a call publishes comes after the history
    have hopened := opened_call h.opened hcall
    have hextended := (Reached.extended huuid hparse
      (h.opened.holds huuid hparse (fun _ _ => trivial) fun _ => trivial) (.single hcall)).holds
    obtain ⟨more, hmore, -⟩ := hextended.events
    have hnext : Keyed t.events := keyed_of_distinct (hopened.tallied huuid hparse).indexed.distinct
    have hdrop : t.events.drop w.store.events.length = more := by
      rw [hmore, List.drop_left]
    refine ⟨hopened, ?_, fun b hb => ?_, fun b hb => ?_⟩
    · show Warm t.events (indexEvents w.warm w.store.events.length (t.events.drop w.store.events.length))
      rw [hdrop, hmore]
      rw [hmore] at hnext
      exact h.warm.indexEvents hnext
    · show Copying t.events b
      rw [hmore]
      exact (h.copying b hb).append
    · show Following t.events b
      rw [hmore]
      exact (h.following b hb).append
  | begin cid =>
    refine ⟨h.opened, h.warm, fun b hb => ?_, fun b hb => ?_⟩
    · obtain ⟨rfl, -⟩ := Prod.mk.inj (Option.some.inj hb)
      exact .new hheld.indexed hheld.holds.1
    · obtain ⟨-, hfalse⟩ := Prod.mk.inj (Option.some.inj hb)
      cases hfalse
  | @snapshot b b' stop hb hsnapshot =>
    have hnext := (h.copying b hb).snapshot hheld.indexed hheld.holds.1 stop
    rw [hsnapshot] at hnext
    refine ⟨h.opened, h.warm, fun d hd => ?_, fun d hd => ?_⟩
    · obtain ⟨rfl, -⟩ := Prod.mk.inj (Option.some.inj hd)
      exact hnext.1
    · obtain ⟨-, hfalse⟩ := Prod.mk.inj (Option.some.inj hd)
      cases hfalse
  | @sorted b b' stop hb hsnapshot =>
    have hnext := (h.copying b hb).snapshot hheld.indexed hheld.holds.1 stop
    have hsame : (b.snapshot w.store stop).1.fence = b.fence ∧ (b.snapshot w.store stop).1.cid = b.cid :=
      ⟨rfl, rfl⟩
    rw [hsnapshot] at hnext hsame
    refine ⟨h.opened, h.warm, fun d hd => ?_, fun d hd => ?_⟩
    · obtain ⟨-, hfalse⟩ := Prod.mk.inj (Option.some.inj hd)
      cases hfalse
    · obtain ⟨rfl, -⟩ := Prod.mk.inj (Option.some.inj hd)
      refine hnext.1.sorted hkeyed ?_
      rw [hsame.1, hsame.2]
      exact hnext.2 rfl
  | @follow b stop hb hnot =>
    refine ⟨h.opened, h.warm, fun d hd => ?_, fun d hd => ?_⟩
    · obtain ⟨-, hfalse⟩ := Prod.mk.inj (Option.some.inj hd)
      cases hfalse
    · obtain ⟨rfl, -⟩ := Prod.mk.inj (Option.some.inj hd)
      exact (h.following b hb).follow hkeyed
  | @install b hb hend =>
    -- nothing has come since the last turn, so that the construction is exact
    refine ⟨h.opened, fun cid c hc => ?_, nofun, nofun⟩
    have hc' : (w.warm.insert b.cid b.index)[cid]? = some c := hc
    rw [getElem?_insert_map] at hc'
    split at hc'
    · rename_i hcid
      obtain rfl := Option.some.inj hc'
      rw [hcid]
      exact (h.following b hb).exact hend
    · exact h.warm cid c hc'
  | abandon => exact ⟨h.opened, h.warm, nofun, nofun⟩
  | evict cid =>
    refine ⟨h.opened, fun other c hc => h.warm other c ?_, h.copying, h.following⟩
    have hc' : (w.warm.erase cid)[other]? = some c := hc
    rw [Std.ExtTreeMap.getElem?_erase] at hc'
    split at hc'
    · cases hc'
    · exact hc'

theorem Sound.run (h : Sound w) (hrun : Relation.ReflTransGen Searching.Step w v) : Sound v := by
  induction hrun with
  | refl => exact h
  | tail _ hstep ih => exact ih.step huuid hparse hstep

omit huuid hparse in
theorem sound_opened (hs : Opened s) : Sound { store := s } :=
  ⟨hs, fun cid c hc => by simp at hc, nofun, nofun⟩

end

/-! ## A built index -/

section

variable [Externals] [Segments] {s : Store} {cid : String} {stop : Nat → Bool}

/-- An index whose events fit one batch is in use after three turns of the worker. -/
theorem built_at_once (hlast : ((Build.new s cid).snapshot s stop).2 = true) :
    Relation.ReflTransGen Searching.Step { store := s }
      { store := s,
        warm := (∅ : Map ConversationSearch).insert cid ((Build.new s cid).snapshot s stop).1.index.sort } := by
  refine .head (.begin cid) (.head (.sorted stop rfl (Prod.ext rfl hlast)) (.single ?_))
  have hdelta : ((Build.new s cid).snapshot s stop).1.delta = s.events.length := rfl
  exact @Searching.Step.install _ _
    ⟨s, ∅, some ({ ((Build.new s cid).snapshot s stop).1 with
      index := ((Build.new s cid).snapshot s stop).1.index.sort }, true)⟩ _ rfl hdelta

end

section

local instance builtText : Externals := briefText

/-- Each text is one word. -/
local instance wholeText : Segments := ⟨fun text => [text]⟩

/-- The index of the sample's channel, built in one batch. -/
def relayedIndex : ConversationSearch :=
  ((Build.new relayed relayedChannel).snapshot relayed fun _ => false).1.index.sort

theorem relayed_built : Relation.ReflTransGen Searching.Step { store := relayed }
    { store := relayed, warm := (∅ : Map ConversationSearch).insert relayedChannel relayedIndex } :=
  built_at_once (by decide +kernel)

end

end Search

end ClaudeManager
