import ClaudeManager.Holder.Channel

/-!
# Which descriptors a frame is returned with

A stream is read as cells, one for each byte, that hold the descriptors travelling with it.
What the reader holds, what is in flight and what is unsent are together the cells of the
messages not yet returned, so a popped frame gets its own descriptors exactly when the
descriptors before it were all claimed.
-/

namespace Holder

variable {δ : Type}

/-! ## Cells -/

/-- The cells of bytes whose first one carries `fds`. -/
def cellsOf (bytes : List UInt8) (fds : List δ) : List (UInt8 × List δ) :=
  match bytes with
  | [] => []
  | b :: rest => (b, fds) :: rest.map fun c => (c, [])

@[simp] theorem cellsOf_nil {fds : List δ} : cellsOf [] fds = [] := rfl

@[simp] theorem length_cellsOf {bytes : List UInt8} {fds : List δ} :
    (cellsOf bytes fds).length = bytes.length := by
  cases bytes <;> simp [cellsOf]

@[simp] theorem fst_cellsOf {bytes : List UInt8} {fds : List δ} :
    (cellsOf bytes fds).map Prod.fst = bytes := by
  cases bytes <;> simp [cellsOf, Function.comp_def]

theorem snd_cellsOf {bytes : List UInt8} {fds : List δ} (h : bytes ≠ []) :
    (cellsOf bytes fds).flatMap Prod.snd = fds := by
  cases bytes with
  | nil => exact absurd rfl h
  | cons b rest => simp [cellsOf, List.flatMap_map]

theorem snd_of_mem_cellsOf {bytes : List UInt8} {fds : List δ} {c : UInt8 × List δ}
    (h : c ∈ cellsOf bytes fds) : c.2 = [] ∨ c.2 = fds := by
  cases bytes with
  | nil => simp at h
  | cons b rest =>
    simp only [cellsOf, List.mem_cons, List.mem_map] at h
    rcases h with rfl | ⟨_, _, rfl⟩
    · exact .inr rfl
    · exact .inl rfl

theorem cellsOf_empty {bytes : List UInt8} :
    cellsOf bytes ([] : List δ) = bytes.map fun c => (c, []) := by
  cases bytes <;> rfl

/-- Cut after a byte, the descriptors stay with the first part. -/
theorem cellsOf_append {b c : List UInt8} {fds : List δ} (h : b ≠ []) :
    cellsOf (b ++ c) fds = cellsOf b fds ++ cellsOf c [] := by
  cases b with
  | nil => exact absurd rfl h
  | cons x b => rw [cellsOf_empty]; simp [cellsOf]

theorem cellsOf_take_drop {bytes : List UInt8} {fds : List δ} {n : Nat} (hn : 0 < n) :
    cellsOf bytes fds = cellsOf (bytes.take n) fds ++ cellsOf (bytes.drop n) [] := by
  cases bytes with
  | nil => simp
  | cons b rest =>
    rw [← cellsOf_append, List.take_append_drop]
    simp; omega

def Segment.cells (s : Segment δ) : List (UInt8 × List δ) := cellsOf s.bytes s.fds

section

variable [Serde]

def Message.cells (m : Message δ) : List (UInt8 × List δ) := cellsOf m.frame.toWire m.fds

theorem length_toWire {f : Frame} : f.toWire.length = 4 + (Serde.toVec f).length := by
  simp [Frame.toWire]

theorem toWire_ne_nil {f : Frame} : f.toWire ≠ [] := by
  simp [Frame.toWire, toLeBytes]

@[simp] theorem length_cells {m : Message δ} : m.cells.length = m.frame.toWire.length :=
  length_cellsOf

@[simp] theorem fst_cells {m : Message δ} : m.cells.map Prod.fst = m.frame.toWire := fst_cellsOf

@[simp] theorem snd_cells {m : Message δ} : m.cells.flatMap Prod.snd = m.fds :=
  snd_cellsOf toWire_ne_nil

/-! ## Reading off the stream -/

omit [Serde] in
/-- A read takes a first part of the cells in flight. -/
theorem takeBytes_cells : ∀ (n : Nat) (queue : List (Segment δ)), (∀ s ∈ queue, s.bytes ≠ []) →
    ∃ cells, cells.map Prod.fst = (takeBytes n queue).1.1 ∧
      cells.flatMap Prod.snd = (takeBytes n queue).1.2 ∧
      queue.flatMap Segment.cells = cells ++ (takeBytes n queue).2.flatMap Segment.cells
  | 0, queue, _ => ⟨[], by simp [takeBytes]⟩
  | n + 1, [], _ => ⟨[], by simp [takeBytes]⟩
  | n + 1, s :: rest, h => by
    have hs : s.bytes ≠ [] := h s List.mem_cons_self
    unfold takeBytes
    by_cases hend : ¬ s.fds.isEmpty ∨ n + 1 < s.bytes.length
    · rw [if_pos hend]
      have htake : s.bytes.take (n + 1) ≠ [] := by
        simpa using hs
      refine ⟨cellsOf (s.bytes.take (n + 1)) s.fds, fst_cellsOf, snd_cellsOf htake, ?_⟩
      have hcells : s.cells = _ := cellsOf_take_drop (Nat.succ_pos n)
      simp only [List.flatMap_cons, hcells, List.append_assoc]
      split
      · rename_i hleft
        rw [List.isEmpty_iff.mp hleft]
        simp
      · simp [Segment.cells]
    · rw [if_neg hend]
      obtain ⟨cells, hfst, hsnd, hcells⟩ := takeBytes_cells (n + 1 - s.bytes.length) rest
        fun t ht => h t (List.mem_cons_of_mem _ ht)
      refine ⟨s.cells ++ cells, ?_, ?_, ?_⟩
      · simp [Segment.cells, hfst]
      · have hnone : s.fds = [] := by simpa using (not_or.mp hend).1
        rw [List.flatMap_append, Segment.cells, snd_cellsOf hs, hnone, hsnd, List.nil_append]
      · simp only [List.flatMap_cons, hcells, List.append_assoc]

omit [Serde] in
theorem takeBytes_nonempty : ∀ (n : Nat) (queue : List (Segment δ)),
    (∀ s ∈ queue, s.bytes ≠ []) → ∀ s ∈ (takeBytes n queue).2, s.bytes ≠ []
  | 0, queue, h => by simpa [takeBytes] using h
  | n + 1, [], _ => by simp [takeBytes]
  | n + 1, t :: rest, h => by
    have hrest := fun u hu => h u (List.mem_cons_of_mem t hu)
    unfold takeBytes
    split
    · simp only
      split
      · exact hrest
      · rename_i hleft
        intro s hs
        rcases List.mem_cons.mp hs with rfl | hs
        · simpa using hleft
        · exact hrest s hs
    · exact takeBytes_nonempty _ rest hrest

omit [Serde] in
/-- One read brings the descriptors of one segment at most. -/
theorem takeBytes_fds : ∀ (n : Nat) (queue : List (Segment δ)),
    (takeBytes n queue).1.2 = [] ∨ ∃ s ∈ queue, (takeBytes n queue).1.2 = s.fds
  | 0, queue => .inl (by simp [takeBytes])
  | n + 1, [] => .inl rfl
  | n + 1, t :: rest => by
    unfold takeBytes
    split
    · exact .inr ⟨t, List.mem_cons_self, rfl⟩
    · rcases takeBytes_fds (n + 1 - t.bytes.length) rest with h | ⟨s, hs, h⟩
      · exact .inl h
      · exact .inr ⟨s, List.mem_cons_of_mem _ hs, h⟩

/-! ## Popping -/

/-- A buffer that starts with a whole message's cells pops as that message's claim. -/
theorem nextFrame_whole {m : Message δ} (hserde : Serde.fromSlice (Serde.toVec m.frame) = .ok m.frame)
    {r : FrameReader δ} {rest : List UInt8} (hbuf : r.buf = m.frame.toWire ++ rest) :
    r.nextFrame = { r with buf := rest }.claim m.frame := by
  have hfits := m.fits
  have hlen : m.frame.toWire.length = 4 + (Serde.toVec m.frame).length := length_toWire
  have hle : fromLeBytes r.buf = (Serde.toVec m.frame).length := by
    rw [hbuf, Frame.toWire, List.append_assoc]
    exact fromLeBytes_toLeBytes (by unfold maxFrameBytes at hfits; omega) _
  have hpayload : (r.buf.take (4 + (Serde.toVec m.frame).length)).drop 4
      = Serde.toVec m.frame := by
    rw [hbuf, ← hlen, List.take_left, Frame.toWire, ← length_toLeBytes, List.drop_left]
  have hrest : r.buf.drop (4 + (Serde.toVec m.frame).length) = rest := by
    rw [hbuf, ← hlen, List.drop_left]
  have hbuflen : r.buf.length = 4 + (Serde.toVec m.frame).length + rest.length := by
    rw [hbuf, List.length_append, hlen]
  unfold FrameReader.nextFrame
  rw [if_neg (by omega), hle]
  simp only
  rw [if_neg (by omega), if_neg (by omega), hpayload, hserde, hrest]

/-- A buffer that holds only a first part of a message pops nothing. -/
theorem nextFrame_short {m : Message δ} {r : FrameReader δ} {rest : List UInt8}
    (hbuf : r.buf ++ rest = m.frame.toWire) (hrest : rest ≠ []) : r.nextFrame = (.ok none, r) := by
  have hfits := m.fits
  have hlen : m.frame.toWire.length = 4 + (Serde.toVec m.frame).length := length_toWire
  have hpos : 0 < rest.length := List.length_pos_of_ne_nil hrest
  have hsum : r.buf.length + rest.length = 4 + (Serde.toVec m.frame).length := by
    rw [← hlen, ← hbuf, List.length_append]
  unfold FrameReader.nextFrame
  by_cases h4 : r.buf.length < 4
  · rw [if_pos h4]
  · have hle : fromLeBytes r.buf = (Serde.toVec m.frame).length := by
      rw [← fromLeBytes_append (c := rest) (by omega), hbuf, Frame.toWire]
      exact fromLeBytes_toLeBytes (by unfold maxFrameBytes at hfits; omega) _
    rw [if_neg h4, hle]
    simp only
    rw [if_neg (by omega), if_pos (by omega)]

omit [Serde] in
/-- A claim finds a surplus, a shortage, or exactly what was declared at the front. -/
theorem claim_cases (r : FrameReader δ) (f : Frame) :
    (r.pendingFds.length < f.nfds.toNat ∧ ∃ v, r.claim f = (.error v, r)) ∨
    (f.nfds.toNat < r.pendingFds.length ∧ r.buf = [] ∧
      ∃ v, r.claim f = (.error v, { r with pendingFds := [] })) ∨
    (f.nfds.toNat ≤ r.pendingFds.length ∧ (r.buf = [] → f.nfds.toNat = r.pendingFds.length) ∧
      r.claim f = (.ok (some (f, r.pendingFds.take f.nfds.toNat)),
        { r with pendingFds := r.pendingFds.drop f.nfds.toNat })) := by
  unfold FrameReader.claim
  by_cases hshort : r.pendingFds.length < f.nfds.toNat
  · exact .inl ⟨hshort, _, if_pos hshort⟩
  · refine .inr ?_
    simp only [if_neg hshort]
    by_cases hsurplus : ¬ (r.pendingFds.drop f.nfds.toNat).isEmpty ∧ r.buf.isEmpty
    · refine .inl ⟨?_, List.isEmpty_iff.mp hsurplus.2, _, if_pos hsurplus⟩
      have := hsurplus.1
      simp only [List.isEmpty_iff, List.drop_eq_nil_iff] at this
      omega
    · refine .inr ⟨by omega, fun hbuf => ?_, if_neg hsurplus⟩
      rw [hbuf] at hsurplus
      simp only [List.isEmpty_nil, and_true, not_not, List.isEmpty_iff,
        List.drop_eq_nil_iff] at hsurplus
      omega

/-! ## Runs -/

namespace Link

/-- The frames returned are the first of those sent, each with its own descriptors and with
as many as it declares. A violation is reported only ahead of a frame that declares another
number or carries more than one `recvmsg` takes, and where nothing is left in flight and no
frame pops, every frame was returned. -/
structure Associated (l : Link δ) : Prop where
  returned : l.returned = (l.sent.take l.returned.length).map fun m => (m.frame, m.fds)
  declared : ∀ m ∈ l.sent.take l.returned.length, m.Declared
  refused : l.violation ≠ none →
    ∃ m ∈ l.sent.drop l.returned.length, ¬ m.Declared ∨ maxFdsPerRecv < m.fds.length
  drained : l.violation = none → l.queue = [] → l.unsent = [] →
    l.reader.nextFrame.1 = .ok none → l.returned.length = l.sent.length

/-- Where the next frame is whole and declares another number of descriptors than it was
sent with, nothing but that frame is buffered or fewer descriptors are held than it declares. -/
def PopSafe (l : Link δ) : Prop :=
  ∀ m rest, l.sent.drop l.returned.length = m :: rest →
    m.frame.toWire.length ≤ l.reader.buf.length →
      m.Declared ∨ l.reader.buf.length = m.frame.toWire.length ∨
        l.reader.pendingFds.length < m.frame.nfds.toNat

/-- The cells in flight or unsent. -/
def ahead (l : Link δ) : List (UInt8 × List δ) :=
  l.queue.flatMap Segment.cells ++ cellsOf l.unsent []

/-- The messages `pend` are not returned, and the reader holds `held` of their cells. -/
structure Holding (l : Link δ) (pend : List (Message δ)) (held : List (UInt8 × List δ)) :
    Prop where
  buf : held.map Prod.fst = l.reader.buf
  fds : held.flatMap Prod.snd = l.reader.pendingFds
  cells : held ++ l.ahead = pend.flatMap Message.cells
  queue : ∀ s ∈ l.queue, s.bytes ≠ []

/-- `done` was returned and `pend` was not. -/
structure Accounted (l : Link δ) (done pend : List (Message δ)) : Prop where
  sent : l.sent = done ++ pend
  returned : l.returned = done.map fun m => (m.frame, m.fds)
  declared : ∀ m ∈ done, m.Declared
  refused : l.violation ≠ none → ∃ m ∈ pend, ¬ m.Declared ∨ maxFdsPerRecv < m.fds.length
  holding : l.violation = none → ∃ held, l.Holding pend held

theorem accounted_new : (new : Link δ).Accounted [] [] where
  sent := rfl
  returned := rfl
  declared := by simp
  refused h := absurd rfl h
  holding _ := ⟨[], rfl, rfl, rfl, by simp [new]⟩

theorem Accounted.length {l : Link δ} {done pend : List (Message δ)} (h : l.Accounted done pend) :
    l.returned.length = done.length := by
  simp [h.returned]

theorem Accounted.drop {l : Link δ} {done pend : List (Message δ)} (h : l.Accounted done pend) :
    l.sent.drop l.returned.length = pend := by
  rw [h.length, h.sent, List.drop_left]

/-- Where cells are left to return, a whole message is held or a proper part of one. -/
theorem Holding.front {l : Link δ} {m : Message δ} {pend : List (Message δ)}
    {held : List (UInt8 × List δ)} (h : l.Holding (m :: pend) held) :
    (∃ more, held = m.cells ++ more ∧ more ++ l.ahead = pend.flatMap Message.cells) ∨
    (∃ rest, rest ≠ [] ∧ l.reader.buf ++ rest = m.frame.toWire) := by
  have hcells := h.cells
  rw [List.flatMap_cons] at hcells
  rcases List.append_eq_append_iff.mp hcells with ⟨rest, hm, -⟩ | ⟨more, hheld, hmore⟩
  · by_cases hrest : rest = []
    · refine .inl ⟨[], ?_, ?_⟩
      · rw [hm, hrest]; simp
      · rw [hm, hrest, List.append_nil, List.append_cancel_left_eq] at hcells
        exact hcells
    · refine .inr ⟨rest.map Prod.fst, by simpa using hrest, ?_⟩
      rw [← h.buf, ← List.map_append, ← hm, fst_cells]
  · exact .inl ⟨more, hheld, hmore.symm⟩

theorem Accounted.associated {l : Link δ} {done pend : List (Message δ)}
    (h : l.Accounted done pend) (hserde : ∀ m ∈ l.sent, Serde.fromSlice (Serde.toVec m.frame) = .ok m.frame) :
    l.Associated where
  returned := by rw [h.length, h.sent, List.take_left, h.returned]
  declared := by rw [h.length, h.sent, List.take_left]; exact h.declared
  refused := by rw [h.drop]; exact h.refused
  drained hviolation hqueue hunsent hnone := by
    obtain ⟨held, hheld⟩ := h.holding hviolation
    have hahead : l.ahead = [] := by simp [ahead, hqueue, hunsent]
    rw [h.length, h.sent]
    cases pend with
    | nil => simp
    | cons m pend =>
      exfalso
      rcases hheld.front with ⟨more, hcells, -⟩ | ⟨rest, hrest, hpart⟩
      · have hbuf : l.reader.buf = m.frame.toWire ++ more.map Prod.fst := by
          rw [← hheld.buf, hcells, List.map_append, fst_cells]
        have hm : m ∈ l.sent := by rw [h.sent]; simp
        rw [nextFrame_whole (hserde m hm) hbuf] at hnone
        rcases claim_cases { l.reader with buf := more.map Prod.fst } m.frame with
          ⟨-, v, hc⟩ | ⟨-, -, v, hc⟩ | ⟨-, -, hc⟩ <;> rw [hc] at hnone <;> cases hnone
      · have hlen := congrArg List.length hheld.cells
        rw [hahead, List.append_nil, List.flatMap_cons, List.length_append, length_cells,
          ← hpart, List.length_append, ← hheld.buf, List.length_map] at hlen
        have := List.length_pos_of_ne_nil hrest
        omega

/-! ### Steps -/

theorem Accounted.sendFirst {l : Link δ} {done pend : List (Message δ)} (h : l.Accounted done pend)
    {m : Message δ} {n : Nat} (hunsent : l.unsent = []) (hn : 0 < n) :
    Accounted { l with
      sent := l.sent ++ [m]
      unsent := m.frame.toWire.drop n
      queue := l.queue ++ [⟨m.frame.toWire.take n, m.fds⟩] } done (pend ++ [m]) where
  sent := by rw [h.sent, List.append_assoc]
  returned := h.returned
  declared := h.declared
  refused hviolation := by
    obtain ⟨m', hm', hbad⟩ := h.refused hviolation
    exact ⟨m', List.mem_append_left _ hm', hbad⟩
  holding hviolation := by
    obtain ⟨held, hheld⟩ := h.holding hviolation
    refine ⟨held, hheld.buf, hheld.fds, ?_, ?_⟩
    · have hcells := hheld.cells
      simp only [ahead, hunsent, cellsOf_nil, List.append_nil] at hcells
      have hm : m.cells = _ := cellsOf_take_drop hn
      simp only [ahead, List.flatMap_append, List.flatMap_cons, List.flatMap_nil, List.append_nil,
        ← hcells, hm, List.append_assoc, Segment.cells]
    · intro s hs
      rcases List.mem_append.mp hs with hs | hs
      · exact hheld.queue s hs
      · rw [List.mem_singleton.mp hs]
        simpa [toWire_ne_nil] using hn.ne'

theorem Accounted.sendRest {l : Link δ} {done pend : List (Message δ)} (h : l.Accounted done pend)
    {n : Nat} (hn : 0 < n) (hle : n ≤ l.unsent.length) :
    Accounted { l with
      unsent := l.unsent.drop n
      queue := l.queue ++ [⟨l.unsent.take n, []⟩] } done pend where
  sent := h.sent
  returned := h.returned
  declared := h.declared
  refused := h.refused
  holding hviolation := by
    obtain ⟨held, hheld⟩ := h.holding hviolation
    refine ⟨held, hheld.buf, hheld.fds, ?_, ?_⟩
    · rw [← hheld.cells]
      simp only [ahead, List.flatMap_append, List.flatMap_cons, List.flatMap_nil, List.append_nil,
        @cellsOf_take_drop _ l.unsent _ _ hn, List.append_assoc, Segment.cells]
    · intro s hs
      rcases List.mem_append.mp hs with hs | hs
      · exact hheld.queue s hs
      · rw [List.mem_singleton.mp hs]
        have : l.unsent ≠ [] := by rintro hnil; rw [hnil] at hle; simp at hle; omega
        simpa [this] using hn.ne'

/-- Descriptors in flight are those of a message that was not returned. -/
theorem Holding.owner {l : Link δ} {pend : List (Message δ)} {held : List (UInt8 × List δ)}
    (h : l.Holding pend held) {s : Segment δ} (hs : s ∈ l.queue) (hfds : s.fds ≠ []) :
    ∃ m ∈ pend, s.fds = m.fds := by
  have hbytes := h.queue s hs
  have hmem : ∃ b, (b, s.fds) ∈ s.cells := by
    cases hb : s.bytes with
    | nil => exact absurd hb hbytes
    | cons b rest => exact ⟨b, by simp [Segment.cells, hb, cellsOf]⟩
  obtain ⟨b, hb⟩ := hmem
  have : (b, s.fds) ∈ held ++ l.ahead :=
    List.mem_append_right _ (List.mem_append_left _ (List.mem_flatMap.mpr ⟨s, hs, hb⟩))
  rw [h.cells] at this
  obtain ⟨m, hm, hcell⟩ := List.mem_flatMap.mp this
  exact ⟨m, hm, (snd_of_mem_cellsOf hcell).resolve_left hfds⟩

theorem Accounted.fed {l : Link δ} {done pend : List (Message δ)} (h : l.Accounted done pend)
    (hviolation : l.violation = none) (n : Nat) :
    (l.fed (.message (takeBytes n l.queue).1.1 (takeBytes n l.queue).1.2
      (decide (maxFdsPerRecv < (takeBytes n l.queue).1.2.length))) (takeBytes n l.queue).2).Accounted
      done pend := by
  obtain ⟨held, hheld⟩ := h.holding hviolation
  unfold Link.fed FrameReader.feed
  by_cases htrunc : maxFdsPerRecv < (takeBytes n l.queue).1.2.length
  · -- only the segment of an unreturned message can have carried that many
    simp only [htrunc, decide_true, if_true]
    refine ⟨h.sent, h.returned, h.declared, fun _ => ?_, fun hnone => by cases hnone⟩
    rcases takeBytes_fds n l.queue with hnil | ⟨s, hs, hfds⟩
    · rw [hnil] at htrunc
      exact absurd htrunc (by simp)
    · rw [hfds] at htrunc
      obtain ⟨m, hm, hown⟩ := hheld.owner hs (by rintro hnil; rw [hnil] at htrunc; simp at htrunc)
      exact ⟨m, hm, .inr (hown ▸ htrunc)⟩
  · simp only [htrunc, decide_false, Bool.false_eq_true, if_false]
    obtain ⟨cells, hfst, hsnd, hcells⟩ := takeBytes_cells n l.queue hheld.queue
    have hnext : ∀ reader : FrameReader δ,
        reader.buf = l.reader.buf ++ (takeBytes n l.queue).1.1 →
        reader.pendingFds = l.reader.pendingFds ++ (takeBytes n l.queue).1.2 →
        Accounted { l with reader := reader, queue := (takeBytes n l.queue).2 } done pend := by
      intro reader hbuf hfds
      refine ⟨h.sent, h.returned, h.declared, fun hv => absurd hviolation hv, fun _ => ?_⟩
      refine ⟨held ++ cells, ?_, ?_, ?_, takeBytes_nonempty n l.queue hheld.queue⟩
      · rw [List.map_append, hheld.buf, hfst, hbuf]
      · rw [List.flatMap_append, hheld.fds, hsnd, hfds]
      · rw [← hheld.cells]
        simp only [ahead, hcells, List.append_assoc]
    by_cases hempty : (takeBytes n l.queue).1.1.isEmpty
    · simp only [hempty, if_true]
      exact hnext _ (by simp [List.isEmpty_iff.mp hempty]) rfl
    · simp only [hempty, Bool.false_eq_true, if_false]
      exact hnext _ rfl rfl

theorem Accounted.popped {l : Link δ} {done pend : List (Message δ)} (h : l.Accounted done pend)
    (hviolation : l.violation = none)
    (hserde : ∀ m ∈ l.sent, Serde.fromSlice (Serde.toVec m.frame) = .ok m.frame)
    (hsafe : l.PopSafe) : ∃ done' pend', l.popped.Accounted done' pend' := by
  obtain ⟨held, hheld⟩ := h.holding hviolation
  unfold Link.popped
  cases pend with
  | nil =>
    have hnil : held = [] := (List.append_eq_nil_iff.mp hheld.cells).1
    have hbuf : l.reader.buf = [] := by rw [← hheld.buf, hnil]; rfl
    have hpop : l.reader.nextFrame = (.ok none, l.reader) := by
      unfold FrameReader.nextFrame
      rw [if_pos (by rw [hbuf]; decide)]
    rw [hpop]
    exact ⟨done, [], h⟩
  | cons m pend =>
    rcases hheld.front with ⟨more, hcells, hmore⟩ | ⟨rest, hrest, hpart⟩
    · have hbuf : l.reader.buf = m.frame.toWire ++ more.map Prod.fst := by
        rw [← hheld.buf, hcells, List.map_append, fst_cells]
      have hfds : l.reader.pendingFds = m.fds ++ more.flatMap Prod.snd := by
        rw [← hheld.fds, hcells, List.flatMap_append, snd_cells]
      have hm : m ∈ l.sent := by rw [h.sent]; simp
      have hgood := hsafe m pend h.drop (by rw [hbuf]; simp)
      rw [nextFrame_whole (hserde m hm) hbuf]
      -- a refusal is of a frame that declares another number
      have hrefuse : ¬ m.Declared → ∀ (v : ProtocolViolation) (reader : FrameReader δ),
          ∃ done' pend', Accounted { l with reader := reader, violation := some v } done' pend' :=
        fun hbad v reader => ⟨done, m :: pend, h.sent, h.returned, h.declared,
          fun _ => ⟨m, List.mem_cons_self, .inl hbad⟩, fun hnone => by cases hnone⟩
      rcases claim_cases { l.reader with buf := more.map Prod.fst } m.frame with
        ⟨hlt, v, hc⟩ | ⟨hlt, hnil, v, hc⟩ | ⟨hle, hall, hc⟩
      · rw [hc]
        refine hrefuse (fun hdecl => ?_) v _
        simp only [hfds, List.length_append] at hlt
        unfold Message.Declared at hdecl
        omega
      · rw [hc]
        refine hrefuse (fun hdecl => ?_) v _
        have hmorenil : more = [] := by simpa using hnil
        simp only [hfds, hmorenil, List.flatMap_nil, List.append_nil] at hlt
        unfold Message.Declared at hdecl
        omega
      · rw [hc]
        have hdecl : m.Declared := by
          rcases hgood with hdecl | hlen | hlt
          · exact hdecl
          · have hmorenil : more = [] := by
              rw [hbuf, List.length_append] at hlen
              simpa using hlen
            have heq := hall (by simp [hmorenil])
            simpa [hfds, hmorenil, Message.Declared] using heq
          · simp only at hle
            omega
        refine ⟨done ++ [m], pend, by rw [h.sent]; simp, ?_, ?_, fun hv => absurd hviolation hv,
          fun _ => ⟨more, rfl, ?_, hmore, hheld.queue⟩⟩
        · rw [List.map_append, ← h.returned, hdecl, hfds, List.take_left]
          rfl
        · intro m' hm'
          rcases List.mem_append.mp hm' with hm' | hm'
          · exact h.declared m' hm'
          · exact List.mem_singleton.mp hm' ▸ hdecl
        · rw [hdecl]
          simp only [hfds, List.drop_left]
    · rw [nextFrame_short hpart hrest]
      exact ⟨done, m :: pend, h⟩

/-- A step keeps the account, where a popped frame is safe to pop. -/
theorem Accounted.step {l l' : Link δ} {done pend : List (Message δ)} (h : l.Accounted done pend)
    {a : LinkAction δ} (hstep : l.step a = some l')
    (hserde : ∀ m ∈ l.sent, Serde.fromSlice (Serde.toVec m.frame) = .ok m.frame)
    (hsafe : a = .nextFrame → l.PopSafe) : ∃ done' pend', l'.Accounted done' pend' := by
  cases a with
  | sendFirst m n =>
    unfold Link.step at hstep
    simp only [Option.ite_none_right_eq_some, Option.some.injEq, List.isEmpty_iff] at hstep
    obtain ⟨⟨hunsent, hn, -⟩, rfl⟩ := hstep
    exact ⟨_, _, h.sendFirst hunsent hn⟩
  | sendRest n =>
    unfold Link.step at hstep
    simp only [Option.ite_none_right_eq_some, Option.some.injEq] at hstep
    obtain ⟨⟨hn, hle⟩, rfl⟩ := hstep
    exact ⟨_, _, h.sendRest hn hle⟩
  | feed n =>
    unfold Link.step at hstep
    simp only [Option.ite_none_right_eq_some, Option.some.injEq, Option.isNone_iff_eq_none] at hstep
    obtain ⟨⟨hviolation, -⟩, rfl⟩ := hstep
    exact ⟨_, _, h.fed hviolation n⟩
  | feedAgain =>
    unfold Link.step at hstep
    simp only [Option.ite_none_right_eq_some, Option.some.injEq] at hstep
    obtain ⟨-, rfl⟩ := hstep
    exact ⟨_, _, h⟩
  | nextFrame =>
    unfold Link.step at hstep
    simp only [Option.ite_none_right_eq_some, Option.some.injEq, Option.isNone_iff_eq_none] at hstep
    obtain ⟨hviolation, rfl⟩ := hstep
    exact h.popped hviolation hserde (hsafe rfl)

/-- Nothing sent or returned is taken back. -/
theorem step_grows {l l' : Link δ} {a : LinkAction δ} (hstep : l.step a = some l') :
    l.sent <+: l'.sent ∧ l.returned <+: l'.returned := by
  cases a with
  | sendFirst m n =>
    unfold Link.step at hstep
    simp only [Option.ite_none_right_eq_some, Option.some.injEq] at hstep
    obtain ⟨-, rfl⟩ := hstep
    exact ⟨List.prefix_append _ _, List.prefix_rfl⟩
  | sendRest n =>
    unfold Link.step at hstep
    simp only [Option.ite_none_right_eq_some, Option.some.injEq] at hstep
    obtain ⟨-, rfl⟩ := hstep
    exact ⟨List.prefix_rfl, List.prefix_rfl⟩
  | feed n =>
    unfold Link.step at hstep
    simp only [Option.ite_none_right_eq_some, Option.some.injEq] at hstep
    obtain ⟨-, rfl⟩ := hstep
    unfold Link.fed
    split <;> exact ⟨List.prefix_rfl, List.prefix_rfl⟩
  | feedAgain =>
    unfold Link.step at hstep
    simp only [Option.ite_none_right_eq_some, Option.some.injEq] at hstep
    obtain ⟨-, rfl⟩ := hstep
    exact ⟨List.prefix_rfl, List.prefix_rfl⟩
  | nextFrame =>
    unfold Link.step at hstep
    simp only [Option.ite_none_right_eq_some, Option.some.injEq] at hstep
    obtain ⟨-, rfl⟩ := hstep
    unfold Link.popped
    split
    · exact ⟨List.prefix_rfl, List.prefix_rfl⟩
    · exact ⟨List.prefix_rfl, List.prefix_append _ _⟩
    · exact ⟨List.prefix_rfl, List.prefix_rfl⟩

theorem run_cons {l l' : Link δ} {a : LinkAction δ} {rest : List (LinkAction δ)} :
    l.run (a :: rest) = some l' ↔ ∃ m, l.step a = some m ∧ m.run rest = some l' := by
  rw [run, Option.bind_eq_some_iff]

theorem run_grows {l l' : Link δ} : ∀ {acts : List (LinkAction δ)}, l.run acts = some l' →
    l.sent <+: l'.sent ∧ l.returned <+: l'.returned
  | [], h => by
    simp only [run, Option.some.injEq] at h
    exact h ▸ ⟨List.prefix_rfl, List.prefix_rfl⟩
  | a :: rest, h => by
    obtain ⟨m, hstep, hrun⟩ := run_cons.mp h
    have hone := step_grows hstep
    have hmore := run_grows hrun
    exact ⟨hone.1.trans hmore.1, hone.2.trans hmore.2⟩

theorem run_append {l l' : Link δ} : ∀ {before after : List (LinkAction δ)},
    l.run (before ++ after) = some l' ↔ ∃ m, l.run before = some m ∧ m.run after = some l'
  | [], after => by simp [run]
  | a :: before, after => by
    rw [List.cons_append, run_cons]
    constructor
    · rintro ⟨m, hstep, hrun⟩
      obtain ⟨m', hbefore, hafter⟩ := run_append.mp hrun
      exact ⟨m', run_cons.mpr ⟨m, hstep, hbefore⟩, hafter⟩
    · rintro ⟨m', hbefore, hafter⟩
      obtain ⟨m, hstep, hrun⟩ := run_cons.mp hbefore
      exact ⟨m, hstep, run_append.mpr ⟨m', hrun, hafter⟩⟩

/-- Every frame that the actions pop is safe to pop. -/
def AlwaysPopSafe (l : Link δ) (acts : List (LinkAction δ)) : Prop :=
  ∀ before after m, acts = before ++ .nextFrame :: after → l.run before = some m → m.PopSafe

theorem Accounted.run {l l' : Link δ} : ∀ {acts : List (LinkAction δ)} {done pend : List (Message δ)},
    l.Accounted done pend → l.run acts = some l' →
    (∀ m ∈ l'.sent, Serde.fromSlice (Serde.toVec m.frame) = .ok m.frame) →
    l.AlwaysPopSafe acts → ∃ done' pend', l'.Accounted done' pend'
  | [], done, pend, h, hrun, _, _ => by
    simp only [Link.run, Option.some.injEq] at hrun
    exact ⟨done, pend, hrun ▸ h⟩
  | a :: rest, done, pend, h, hrun, hserde, hsafe => by
    obtain ⟨m, hstep, hrest⟩ := run_cons.mp hrun
    have hsub := ((step_grows hstep).1.trans (run_grows hrest).1).subset
    obtain ⟨done', pend', hm⟩ := h.step hstep (fun m' hm' => hserde m' (hsub hm'))
      (fun ha => hsafe [] rest l (by rw [ha]; rfl) rfl)
    refine hm.run hrest hserde fun before after m' hacts hbefore => ?_
    exact hsafe (a :: before) after m' (by rw [hacts]; rfl) (run_cons.mpr ⟨m, hstep, hbefore⟩)

/-- A frame that is not safe to pop is returned, though it declares another number of
descriptors than it was sent with. -/
theorem Accounted.popped_bad {l : Link δ} {done pend : List (Message δ)}
    (h : l.Accounted done pend) (hviolation : l.violation = none)
    (hserde : ∀ m ∈ l.sent, Serde.fromSlice (Serde.toVec m.frame) = .ok m.frame)
    (hbadPop : ¬ l.PopSafe) :
    ∃ m, ¬ m.Declared ∧ l.sent[l.returned.length]? = some m ∧
      l.returned.length < l.popped.returned.length := by
  obtain ⟨held, hheld⟩ := h.holding hviolation
  simp only [PopSafe, not_forall, not_or, not_lt] at hbadPop
  obtain ⟨m, rest, hdrop, hwhole, hbad, hlen, hle⟩ := hbadPop
  have hpend : pend = m :: rest := h.drop.symm.trans hdrop
  subst hpend
  have hm : l.sent[l.returned.length]? = some m := by
    rw [h.length, h.sent, List.getElem?_append_right (Nat.le_refl _), Nat.sub_self]
    rfl
  refine ⟨m, hbad, hm, ?_⟩
  rcases hheld.front with ⟨more, hcells, -⟩ | ⟨part, hpart, hbuf⟩
  · have hbuf : l.reader.buf = m.frame.toWire ++ more.map Prod.fst := by
      rw [← hheld.buf, hcells, List.map_append, fst_cells]
    have hmore : more.map Prod.fst ≠ [] := by
      rintro hnil
      rw [hbuf, hnil, List.append_nil] at hlen
      exact hlen rfl
    unfold Link.popped
    rw [nextFrame_whole (hserde m (List.mem_of_getElem? hm)) hbuf]
    rcases claim_cases { l.reader with buf := more.map Prod.fst } m.frame with
      ⟨hlt, -⟩ | ⟨-, hnil, -⟩ | ⟨-, -, hc⟩
    · simp only at hlt
      omega
    · exact absurd hnil hmore
    · rw [hc]
      simp
  · have hsum := congrArg List.length hbuf
    rw [List.length_append] at hsum
    have := List.length_pos_of_ne_nil hpart
    omega

end Link

open Link in
/-- **In every run over one channel, the frames come out in order with exactly their own
descriptors, up to a violation that is reported for or before the first frame that declares
another number, if and only if every frame is safe to pop.** -/
theorem associated_iff {acts : List (LinkAction δ)} {l : Link δ} (hrun : Link.new.run acts = some l)
    (hserde : ∀ m ∈ l.sent, Serde.fromSlice (Serde.toVec m.frame) = .ok m.frame) :
    l.Associated ↔ Link.new.AlwaysPopSafe acts := by
  constructor
  · intro hassoc
    -- the first pop that is not safe returns a frame that `hassoc` excludes
    by_contra hbad
    have hfirst : ∃ n, ∃ before after m, before.length = n ∧ acts = before ++ .nextFrame :: after ∧
        Link.new.run before = some m ∧ ¬ m.PopSafe := by
      unfold AlwaysPopSafe at hbad
      push Not at hbad
      obtain ⟨before, after, m, hacts, hbefore, hm⟩ := hbad
      exact ⟨_, before, after, m, rfl, hacts, hbefore, hm⟩
    classical
    obtain ⟨before, after, m, hlen, hacts, hbefore, hbadPop⟩ := Nat.find_spec hfirst
    have hsafe : Link.new.AlwaysPopSafe before := by
      intro b a m' hb hm'
      by_contra hbadPop'
      refine Nat.find_min hfirst (m := b.length) ?_ ⟨b, a ++ .nextFrame :: after, m', rfl, ?_, hm', hbadPop'⟩
      · rw [← hlen, hb]; simp
      · rw [hacts, hb]; simp
    rw [hacts] at hrun
    obtain ⟨m', hm', hrest⟩ := run_append.mp hrun
    cases hbefore.symm.trans hm'
    obtain ⟨p, hstep, hafter⟩ := run_cons.mp hrest
    have hgrow := run_grows hafter
    have hsub := ((step_grows hstep).1.trans hgrow.1)
    have hserde' := fun x hx => hserde x (hsub.subset hx)
    obtain ⟨done, pend, hacc⟩ := accounted_new.run hbefore hserde' hsafe
    unfold Link.step at hstep
    simp only [Option.ite_none_right_eq_some, Option.some.injEq, Option.isNone_iff_eq_none] at hstep
    obtain ⟨hviolation, rfl⟩ := hstep
    obtain ⟨x, hx, hget, hlt⟩ := hacc.popped_bad hviolation hserde' hbadPop
    refine hx (hassoc.declared x ?_)
    have hget' : l.sent[m.returned.length]? = some x := by
      obtain ⟨t, ht⟩ := hsub
      rw [← ht, List.getElem?_append_left (List.getElem?_eq_some_iff.mp hget).1, hget]
    have hlt' : m.returned.length < l.returned.length := hlt.trans_le hgrow.2.length_le
    exact List.mem_of_getElem? (i := m.returned.length)
      (by rw [List.getElem?_take_of_lt hlt', hget'])
  · intro hsafe
    obtain ⟨done, pend, hacc⟩ := accounted_new.run hrun hserde hsafe
    exact hacc.associated hserde

end

/-! ## A smuggled descriptor -/

section

/-- `serde_json` on the frames of a table. -/
@[reducible] def tableSerde (table : List (Frame × String)) : Serde where
  toVec f := (table.lookup f).getD "" |>.toList.map fun c => .ofNat c.toNat
  fromSlice b :=
    match table.find? fun e => e.2.toList.map (fun c => .ofNat c.toNat) = b with
    | some e => .ok e.1
    | none => .error "expected value"

/-- A reply that declares no descriptor. -/
def plainFrame : Frame := ⟨"ok", some 1, 0, .obj []⟩

/-- A reply that declares one descriptor. -/
def claimingFrame : Frame := ⟨"ok", some 2, 1, .obj []⟩

local instance smuggleSerde : Serde := tableSerde
  [(plainFrame, "\x7b\"v\":\"ok\",\"req_id\":1,\"nfds\":0,\"body\":\x7b\x7d\x7d"),
   (claimingFrame, "\x7b\"v\":\"ok\",\"req_id\":2,\"nfds\":1,\"body\":\x7b\x7d\x7d")]

/-- The first frame carries an undeclared descriptor and goes out in two segments, the second
declares one and carries none; the reads glue the second segment to the second frame. -/
def smuggleActs : List (LinkAction Nat) :=
  [.sendFirst ⟨plainFrame, [7], by decide⟩ 8, .sendRest 36,
    .sendFirst ⟨claimingFrame, [], by decide⟩ 44, .feed recvBytes, .feed recvBytes, .nextFrame,
    .nextFrame]

theorem smuggle_run : ∃ l, Link.new.run smuggleActs = some l ∧
    (∀ m ∈ l.sent, Serde.fromSlice (Serde.toVec m.frame) = .ok m.frame) ∧
    l.sent.map (fun m => (m.frame, m.fds)) = [(plainFrame, [7]), (claimingFrame, [])] ∧
    l.returned = [(plainFrame, []), (claimingFrame, [7])] := by
  have hrun : (Link.new.run smuggleActs).map
      (fun l => (l.sent.map fun m => (m.frame, m.fds), l.returned)) =
        some ([(plainFrame, [7]), (claimingFrame, [])], [(plainFrame, []), (claimingFrame, [7])]) := by
    decide
  obtain ⟨l, hl, heq⟩ := Option.map_eq_some_iff.mp hrun
  obtain ⟨hsent, hreturned⟩ := Prod.mk.inj heq
  refine ⟨l, hl, fun m hm => ?_, hsent, hreturned⟩
  have hframe : (m.frame, m.fds) ∈ [(plainFrame, [7]), (claimingFrame, [])] :=
    hsent ▸ List.mem_map_of_mem hm
  simp only [List.mem_cons, Prod.mk.injEq, List.not_mem_nil, or_false] at hframe
  rcases hframe with ⟨hf, -⟩ | ⟨hf, -⟩ <;> rw [hf] <;> decide

/-- The second frame is returned with the first one's descriptor, and no violation is seen. -/
theorem smuggled_descriptor : ∃ l, Link.new.run smuggleActs = some l ∧
    (∀ m ∈ l.sent, Serde.fromSlice (Serde.toVec m.frame) = .ok m.frame) ∧
    l.sent.map (fun m => (m.frame, m.fds)) = [(plainFrame, [7]), (claimingFrame, [])] ∧
    l.returned = [(plainFrame, []), (claimingFrame, [7])] ∧ ¬ l.Associated := by
  obtain ⟨l, hl, hserde, hsent, hreturned⟩ := smuggle_run
  refine ⟨l, hl, hserde, hsent, hreturned, fun hassoc => ?_⟩
  have := hassoc.returned
  rw [hreturned, List.map_take, hsent] at this
  revert this
  decide

theorem smuggled_iff : ∃ l, Link.new.run smuggleActs = some l ∧
    (l.Associated ↔ Link.new.AlwaysPopSafe smuggleActs) := by
  obtain ⟨l, hl, hserde, -⟩ := smuggle_run
  exact ⟨l, hl, associated_iff hl hserde⟩

end

end Holder
