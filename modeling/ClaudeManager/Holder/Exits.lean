import ClaudeManager.Holder.Supervisor
import ClaudeManager.Program.Histories

/-!
# The exits of session children

What a history shows of the children's exits, and the invariant that carries it: each record
agrees with what happened to its child, and each unacknowledged exit is still held.
-/

namespace Holder

open Containers Program

/-! ## What a history shows -/

/-- The record of the child was armed, by a brain or by its adoption. -/
def Authorized (child : Nat) (uid : String) (incarnation : Nat) (l : List Happening) : Prop :=
  (∃ m, .held child uid incarnation m ∈ l) ∧
    ((∃ g, .armed g uid incarnation ∈ l) ∨ .held child uid incarnation true ∈ l)

/-- The exit event was consumed, and neither acknowledged nor aborted since. -/
def Outstanding (event : ExitEventBody) : List Happening → Prop :=
  Open (fun x => ∃ child, x = .pending child event)
    fun x => x = .acked event.uid event.incarnation ∨ x = .aborted event.uid event.incarnation

/-- The exit event of the child was consumed and then acknowledged. -/
def AckedExit (child : Nat) (uid : String) (incarnation : Nat) (l : List Happening) : Prop :=
  ∃ event : ExitEventBody, event.uid = uid ∧ event.incarnation = incarnation ∧
    ∃ a b, l = a ++ .pending child event :: b ∧ .acked uid incarnation ∈ b

/-- What may happen after `l`. -/
def Allowed (l : List Happening) : Happening → Prop
  | .held child _ incarnation _ =>
    ∀ c u i m, .held c u i m ∈ l → c ≠ child ∧ i ≠ incarnation
  | .consumed child reaper =>
    (∀ r, .consumed child r ∉ l) ∧
      (reaper = .exit → ∃ uid incarnation, Authorized child uid incarnation l)
  | .pending child event =>
    .consumed child .exit ∈ l ∧ (∃ m, .held child event.uid event.incarnation m ∈ l) ∧
      .exited child ⟨event.code, event.signal⟩ ∈ l ∧ ∀ ev, .pending child ev ∉ l
  | .sent epoch event =>
    .armed epoch event.uid event.incarnation ∈ l ∧ ∃ child, .pending child event ∈ l
  | .forgotten uid incarnation => ∃ child, AckedExit child uid incarnation l
  | _ => True

/-- An accepted `arm_reap` calls for the outstanding event of its record. -/
def Due (l : List Happening) (x y : Happening) : Prop :=
  ∃ epoch event, x = .armed epoch event.uid event.incarnation ∧ y = .sent epoch event ∧
    Outstanding event l

/-! ## The invariant -/

/-- The part of a serve state that the exits of children depend on. -/
structure Book where
  sessions : Map SessionEntry
  nextIncarnation : Nat
  epoch : Nat
  kernel : Kernel
  history : List Happening

def Serving.book (s : Serving) : Book :=
  ⟨s.holder.sessions, s.holder.nextIncarnation, s.holder.epoch, s.kernel, s.history⟩

/-- A record agrees with what happened to its child. -/
structure Record (b : Book) (uid : String) (e : SessionEntry) : Prop where
  held : ∃ m, .held e.pidfd.child uid e.incarnation m ∈ b.history
  live : e.exit = none → b.kernel.procs e.pidfd.child ≠ .reaped
  gone : ∀ x, e.exit = some x → ∃ event : ExitEventBody, event.uid = uid ∧
    event.incarnation = e.incarnation ∧ x.exitedAt = event.exitedAt ∧
    .pending e.pidfd.child event ∈ b.history ∧
    (x.pending = some event ∨
      x.pending = none ∧ AckedExit e.pidfd.child uid e.incarnation b.history)
  armed : e.reapArmed → Authorized e.pidfd.child uid e.incarnation b.history
  ready : e.deliveryReady → .armed b.epoch uid e.incarnation ∈ b.history
  latched : e.exitLatched → b.kernel.procs e.pidfd.child ≠ .running

structure Books (b : Book) : Prop where
  allowed : Justified Allowed b.history
  answered : Answered Due b.history
  /-- An outstanding event is the pending one of its record. -/
  outstanding : ∀ event, Outstanding event b.history →
    ∃ e, b.sessions[event.uid]? = some e ∧ e.incarnation = event.incarnation ∧
      e.exit = some ⟨event.exitedAt, some event⟩
  records : ∀ (uid : String) e, b.sessions[uid]? = some e → Record b uid e
  present : ∀ child uid incarnation m, .held child uid incarnation m ∈ b.history →
    (∃ e, b.sessions[uid]? = some e ∧ e.incarnation = incarnation ∧ e.pidfd.child = child) ∨
      .aborted uid incarnation ∈ b.history ∨ .forgotten uid incarnation ∈ b.history
  minted : ∀ child uid incarnation m, .held child uid incarnation m ∈ b.history →
    incarnation < b.nextIncarnation ∧ child < b.kernel.forked
  reaped : ∀ child, b.kernel.procs child = .reaped ↔ ∃ r, .consumed child r ∈ b.history
  zombie : ∀ child status, b.kernel.procs child = .zombie status →
    .exited child status ∈ b.history
  unborn : ∀ child, b.kernel.forked ≤ child → b.kernel.procs child = .running
  delivered : ∀ child, .consumed child .exit ∈ b.history → ∃ event, .pending child event ∈ b.history

/-! ## Reading the invariant -/

theorem Authorized.mono {child : Nat} {uid : String} {incarnation : Nat} {l l' : List Happening}
    (h : Authorized child uid incarnation l) (hl : l <+: l') :
    Authorized child uid incarnation l' := by
  obtain ⟨⟨m, hm⟩, hauth⟩ := h
  refine ⟨⟨m, hl.subset hm⟩, ?_⟩
  rcases hauth with ⟨g, hg⟩ | hg
  · exact .inl ⟨g, hl.subset hg⟩
  · exact .inr (hl.subset hg)

theorem AckedExit.mono {child : Nat} {uid : String} {incarnation : Nat} {l l' : List Happening}
    (h : AckedExit child uid incarnation l) (hl : l <+: l') :
    AckedExit child uid incarnation l' := by
  obtain ⟨event, huid, hinc, a, b, rfl, hack⟩ := h
  obtain ⟨c, rfl⟩ := hl
  exact ⟨event, huid, hinc, a, b ++ c, by simp, List.mem_append_left _ hack⟩

/-- A record stays true to a longer history that leaves its child and its generation alone. -/
theorem Record.mono {b b' : Book} {uid : String} {e : SessionEntry} (h : Record b uid e)
    (hhist : b.history <+: b'.history)
    (hreaped : b'.kernel.procs e.pidfd.child = .reaped → b.kernel.procs e.pidfd.child = .reaped)
    (hrunning : b'.kernel.procs e.pidfd.child = .running →
      b.kernel.procs e.pidfd.child = .running)
    (hepoch : e.deliveryReady → b'.epoch = b.epoch) : Record b' uid e where
  held := h.held.imp fun _ hm => hhist.subset hm
  live hexit hr := h.live hexit (hreaped hr)
  gone x hx := by
    obtain ⟨event, huid, hinc, hat, hpend, hack⟩ := h.gone x hx
    exact ⟨event, huid, hinc, hat, hhist.subset hpend, hack.imp id fun ⟨hn, ha⟩ =>
      ⟨hn, ha.mono hhist⟩⟩
  armed ha := (h.armed ha).mono hhist
  ready hr := by
    rw [hepoch hr]
    exact hhist.subset (h.ready hr)
  latched hl hr := h.latched hl (hrunning hr)

theorem outstanding_concat {event : ExitEventBody} {l : List Happening} {x : Happening} :
    Outstanding event (l ++ [x]) ↔ (∃ child, x = .pending child event) ∨ Outstanding event l ∧
      ¬ (x = .acked event.uid event.incarnation ∨ x = .aborted event.uid event.incarnation) :=
  open_concat

/-- A child and an incarnation each name one record. -/
theorem held_unique {l : List Happening} (h : Justified Allowed l) {c c' i i' : Nat}
    {u u' : String} {m m' : Bool} (hx : .held c u i m ∈ l) (hy : .held c' u' i' m' ∈ l)
    (heq : c = c' ∨ i = i') : c = c' ∧ u = u' ∧ i = i' := by
  by_cases hne : Happening.held c u i m = .held c' u' i' m'
  · cases hne
    exact ⟨rfl, rfl, rfl⟩
  · exfalso
    rcases before_or_before hx hy hne with ⟨a, b, hl, hmem⟩ | ⟨a, b, hl, hmem⟩
    · obtain ⟨h1, h2⟩ := h a _ b hl _ _ _ _ hmem
      exact heq.elim h1 h2
    · obtain ⟨h1, h2⟩ := h a _ b hl _ _ _ _ hmem
      exact heq.elim (fun e => h1 e.symm) fun e => h2 e.symm

theorem pending_consumed {l : List Happening} (h : Justified Allowed l) {child : Nat}
    {event : ExitEventBody} (hp : .pending child event ∈ l) : .consumed child .exit ∈ l := by
  obtain ⟨a, b, rfl, hok⟩ := h.of_mem hp
  exact List.mem_append_left _ hok.1

namespace Books

variable {b : Book}

theorem child_ne (h : Books b) {uid uid' : String} {e e' : SessionEntry}
    (he : b.sessions[uid]? = some e) (he' : b.sessions[uid']? = some e') (hne : uid' ≠ uid) :
    e'.pidfd.child ≠ e.pidfd.child := by
  obtain ⟨m, hm⟩ := (h.records uid e he).held
  obtain ⟨m', hm'⟩ := (h.records uid' e' he').held
  exact fun heq => hne (held_unique h.allowed hm' hm (.inl heq)).2.1

theorem not_pending (h : Books b) {child : Nat} (hlive : b.kernel.procs child ≠ .reaped)
    (event : ExitEventBody) : .pending child event ∉ b.history := fun hp =>
  hlive ((h.reaped child).mpr ⟨_, pending_consumed h.allowed hp⟩)

theorem not_consumed (h : Books b) {child : Nat} (hlive : b.kernel.procs child ≠ .reaped)
    (r : Reaper) : .consumed child r ∉ b.history := fun hc =>
  hlive ((h.reaped child).mpr ⟨r, hc⟩)

/-- The outstanding event of a record is the one it holds. -/
theorem outstanding_of (h : Books b) {uid : String} {e : SessionEntry}
    (he : b.sessions[uid]? = some e) {event : ExitEventBody} (hout : Outstanding event b.history)
    (huid : event.uid = uid) : e.incarnation = event.incarnation ∧
      e.exit = some ⟨event.exitedAt, some event⟩ := by
  obtain ⟨e', he', hinc, hexit⟩ := h.outstanding event hout
  rw [huid, he, Option.some.injEq] at he'
  subst he'
  exact ⟨hinc, hexit⟩

/-! ## Happenings that concern no record -/

/-- What changes nothing for any record. -/
def Inert : Happening → Prop
  | .exited .. | .deployArmed .. | .deployDropped | .deployFired .. => True
  | _ => False

theorem inert (h : Books b) {x : Happening} (hx : Inert x) :
    Books { b with history := b.history ++ [x] } where
  allowed := justified_concat.mpr ⟨h.allowed, by cases x <;> trivial⟩
  answered := answered_concat h.answered fun y hdue => by
    obtain ⟨epoch, event, rfl, -⟩ := hdue
    cases hx
  outstanding event hout := by
    rcases outstanding_concat.mp hout with ⟨child, rfl⟩ | ⟨hout, -⟩
    · cases hx
    · exact h.outstanding event hout
  records uid e he := (h.records uid e he).mono (List.prefix_append _ _) id id fun _ => rfl
  present child uid incarnation m hm := by
    rcases List.mem_append.mp hm with hm | hm
    · exact (h.present child uid incarnation m hm).imp_right
        (Or.imp (List.mem_append_left _) (List.mem_append_left _))
    · rw [← List.mem_singleton.mp hm] at hx
      cases hx
  minted child uid incarnation m hm := by
    rcases List.mem_append.mp hm with hm | hm
    · exact h.minted child uid incarnation m hm
    · rw [← List.mem_singleton.mp hm] at hx
      cases hx
  reaped child := by
    rw [h.reaped child]
    refine exists_congr fun r => ⟨List.mem_append_left _, fun hm => ?_⟩
    rcases List.mem_append.mp hm with hm | hm
    · exact hm
    · rw [← List.mem_singleton.mp hm] at hx
      cases hx
  zombie child status hz := List.mem_append_left _ (h.zombie child status hz)
  unborn := h.unborn
  delivered child hc := by
    rcases List.mem_append.mp hc with hc | hc
    · exact (h.delivered child hc).imp fun _ hp => List.mem_append_left _ hp
    · rw [← List.mem_singleton.mp hc] at hx
      cases hx

/-! ## Children -/

/-- A forked child that runs exits. -/
theorem childExit (h : Books b) {child : Nat} (status : ExitStatus)
    (hrun : b.kernel.procs child = .running) (hborn : child < b.kernel.forked) :
    Books { b with
      kernel := { b.kernel with
        procs := Function.update b.kernel.procs child (.zombie status) }
      history := b.history ++ [.exited child status] } := by
  have hi := h.inert (x := .exited child status) trivial
  exact
    { allowed := hi.allowed
      answered := hi.answered
      outstanding := hi.outstanding
      records := fun uid e he => (hi.records uid e he).mono List.prefix_rfl
        (by simp only [Function.update_apply]; split <;> simp_all)
        (by simp only [Function.update_apply]; split <;> simp_all) fun _ => rfl
      present := hi.present
      minted := hi.minted
      reaped := fun c => by
        rw [← hi.reaped c]
        by_cases hc : c = child
        · subst hc
          simp [hrun]
        · simp [Function.update_of_ne hc]
      zombie := fun c st hz => by
        by_cases hc : c = child
        · subst hc
          simp only [Function.update_self, Proc.zombie.injEq] at hz
          simp [hz]
        · simp only [Function.update_of_ne hc] at hz
          exact hi.zombie c st hz
      unborn := fun c hc => by
        have hne : c ≠ child := (hborn.trans_le hc).ne'
        simpa only [Function.update_of_ne hne] using h.unborn c hc
      delivered := hi.delivered }

/-- A forked child without a record is torn down, an incarnation having been taken or not. -/
theorem tearDown (h : Books b) {next : Nat} (hnext : b.nextIncarnation ≤ next) {reaper : Reaper}
    (hreaper : reaper ≠ .exit) :
    Books { b with
      nextIncarnation := next
      kernel := ⟨Function.update b.kernel.procs b.kernel.forked .reaped, b.kernel.forked + 1⟩
      history := b.history ++ [.consumed b.kernel.forked reaper] } := by
  have hfresh : b.kernel.procs b.kernel.forked ≠ .reaped := by
    rw [h.unborn _ le_rfl]
    decide
  have hne : ∀ {uid : String} {e : SessionEntry}, b.sessions[uid]? = some e →
      e.pidfd.child ≠ b.kernel.forked := by
    intro uid e he
    obtain ⟨m, hm⟩ := (h.records uid e he).held
    exact (h.minted _ _ _ _ hm).2.ne
  exact
    { allowed := justified_concat.mpr
        ⟨h.allowed, h.not_consumed hfresh, fun hr => absurd hr hreaper⟩
      answered := answered_concat h.answered fun y hdue => by
        obtain ⟨epoch, event, heq, -⟩ := hdue
        cases heq
      outstanding := fun event hout => by
        rcases outstanding_concat.mp hout with ⟨child, heq⟩ | ⟨hout, -⟩
        · cases heq
        · exact h.outstanding event hout
      records := fun uid e he => (h.records uid e he).mono (List.prefix_append _ _)
        (by simp [Function.update_of_ne (hne he)]) (by simp [Function.update_of_ne (hne he)])
        fun _ => rfl
      present := fun c u i m hm => by simpa using h.present c u i m (by simpa using hm)
      minted := fun c u i m hm => by
        have := h.minted c u i m (by simpa using hm)
        exact ⟨this.1.trans_le hnext, by simp only; omega⟩
      reaped := fun c => by
        by_cases hc : c = b.kernel.forked
        · subst hc
          simp
        · simp [h.reaped c, hc]
      zombie := fun c st hz => by
        by_cases hc : c = b.kernel.forked
        · subst hc
          simp at hz
        · simp only [Function.update_of_ne hc] at hz
          simpa using h.zombie c st hz
      unborn := fun c hc => by
        simp only at hc
        have hne : c ≠ b.kernel.forked := by omega
        simpa only [Function.update_of_ne hne] using h.unborn c (by omega)
      delivered := fun c hc => by
        simp only [List.mem_append, List.mem_singleton, Happening.consumed.injEq] at hc
        rcases hc with hc | ⟨-, rfl⟩
        · simpa using h.delivered c hc
        · exact absurd rfl hreaper }

/-- A forked child gets a record under a new incarnation. -/
theorem hold (h : Books b) {uid : String} {e : SessionEntry} (hnone : b.sessions[uid]? = none)
    (hchild : e.pidfd.child = b.kernel.forked) (hinc : e.incarnation = b.nextIncarnation)
    (hexit : e.exit = none) (hready : e.deliveryReady = false) (hlatched : e.exitLatched = false) :
    Books { b with
      sessions := b.sessions.insert uid e
      nextIncarnation := b.nextIncarnation + 1
      kernel := { b.kernel with forked := b.kernel.forked + 1 }
      history := b.history ++ [.held e.pidfd.child uid e.incarnation e.reapArmed] } where
  allowed := justified_concat.mpr ⟨h.allowed, fun c u i m hm => by
    have := h.minted c u i m hm
    rw [hchild, hinc]
    exact ⟨this.2.ne, this.1.ne⟩⟩
  answered := answered_concat h.answered fun y hdue => by
    obtain ⟨epoch, event, heq, -⟩ := hdue
    cases heq
  outstanding event hout := by
    rcases outstanding_concat.mp hout with ⟨child, heq⟩ | ⟨hout, -⟩
    · cases heq
    · obtain ⟨e', he', hrest⟩ := h.outstanding event hout
      refine ⟨e', ?_, hrest⟩
      rw [getElem?_insert_map, if_neg (by rintro rfl; simp [hnone] at he')]
      exact he'
  records u e' he' := by
    rw [getElem?_insert_map] at he'
    split at he'
    · rename_i hu
      subst hu
      simp only [Option.some.injEq] at he'
      subst he'
      refine ⟨⟨e.reapArmed, by simp⟩, fun _ => ?_, fun x hx => ?_, fun ha => ?_, fun hr => ?_, fun hl => ?_⟩
      · simp only [hchild, h.unborn _ le_rfl]
        decide
      · simp [hexit] at hx
      · exact ⟨⟨e.reapArmed, by simp⟩, .inr (by simp [ha])⟩
      · simp [hready] at hr
      · simp [hlatched] at hl
    · exact (h.records u e' he').mono (List.prefix_append _ _) id id fun _ => rfl
  present c u i m hm := by
    simp only [List.mem_append, List.mem_singleton, Happening.held.injEq] at hm
    rcases hm with hm | ⟨rfl, rfl, rfl, -⟩
    · rcases h.present c u i m hm with ⟨e', he', hrest⟩ | hgone
      · refine .inl ⟨e', ?_, hrest⟩
        rw [getElem?_insert_map, if_neg (by rintro rfl; simp [hnone] at he')]
        exact he'
      · exact .inr (hgone.imp (List.mem_append_left _) (List.mem_append_left _))
    · exact .inl ⟨e, by rw [getElem?_insert_map, if_pos rfl], rfl, rfl⟩
  minted c u i m hm := by
    simp only [List.mem_append, List.mem_singleton, Happening.held.injEq] at hm
    rcases hm with hm | ⟨rfl, rfl, rfl, -⟩
    · have := h.minted c u i m hm
      simp only
      omega
    · simp only [hchild, hinc]
      omega
  reaped c := by simpa using h.reaped c
  zombie c st hz := by simpa using h.zombie c st hz
  unborn c hc := h.unborn c (by simp only at hc; omega)
  delivered c hc := by simpa using h.delivered c (by simpa using hc)

/-! ## Records -/

/-- A record is rewritten, its child, incarnation and exit kept. -/
theorem rewrite (h : Books b) {uid : String} {e e' : SessionEntry}
    (he : b.sessions[uid]? = some e) (hchild : e'.pidfd.child = e.pidfd.child)
    (hinc : e'.incarnation = e.incarnation) (hexit : e'.exit = e.exit)
    (hrec : Record b uid e') : Books { b with sessions := b.sessions.insert uid e' } where
  allowed := h.allowed
  answered := h.answered
  outstanding event hout := by
    obtain ⟨o, ho, hrest⟩ := h.outstanding event hout
    simp only [getElem?_insert_map]
    split
    · rename_i hu
      rw [hu, he, Option.some.injEq] at ho
      subst ho
      exact ⟨e', rfl, by rw [hinc, hexit]; exact hrest⟩
    · exact ⟨o, ho, hrest⟩
  records u o ho := by
    rw [getElem?_insert_map] at ho
    split at ho
    · rename_i hu
      subst hu
      simp only [Option.some.injEq] at ho
      subst ho
      exact hrec.mono List.prefix_rfl id id fun _ => rfl
    · exact (h.records u o ho).mono List.prefix_rfl id id fun _ => rfl
  present c u i m hm := by
    rcases h.present c u i m hm with ⟨o, ho, hrest⟩ | hgone
    · left
      simp only [getElem?_insert_map]
      split
      · rename_i hu
        rw [hu, he, Option.some.injEq] at ho
        subst ho
        exact ⟨e', rfl, by rw [hinc, hchild]; exact hrest⟩
      · exact ⟨o, ho, hrest⟩
    · exact .inr hgone
  minted := h.minted
  reaped := h.reaped
  zombie := h.zombie
  unborn := h.unborn
  delivered := h.delivered

/-- The exit of an armed record is consumed: its child is waited for and its event is pending,
and queued where the generation is ready for it. -/
theorem consume (h : Books b) {uid : String} {e : SessionEntry} {event : ExitEventBody}
    (he : b.sessions[uid]? = some e) (hexit : e.exit = none) (harmed : e.reapArmed)
    {status : ExitStatus} (hzombie : b.kernel.procs e.pidfd.child = .zombie status)
    (huid : event.uid = uid) (hinc : event.incarnation = e.incarnation)
    (hstatus : (⟨event.code, event.signal⟩ : ExitStatus) = status) :
    Books { b with
      sessions := b.sessions.insert uid (e.exited event)
      kernel := { b.kernel with procs := Function.update b.kernel.procs e.pidfd.child .reaped }
      history := b.history ++ [.consumed e.pidfd.child .exit] ++ [.pending e.pidfd.child event] } := by
  have hlive : b.kernel.procs e.pidfd.child ≠ .reaped := by
    rw [hzombie]
    simp
  have hrec := h.records uid e he
  have hnew : Outstanding event
      (b.history ++ [.consumed e.pidfd.child .exit] ++ [.pending e.pidfd.child event]) :=
    outstanding_concat.mpr (.inl ⟨_, rfl⟩)
  have hpre : b.history <+:
      b.history ++ [.consumed e.pidfd.child .exit] ++ [.pending e.pidfd.child event] := by
    rw [List.append_assoc]
    exact List.prefix_append _ _
  have hauth := hrec.armed harmed
  exact
    { allowed := by
        refine justified_concat.mpr ⟨justified_concat.mpr ⟨h.allowed, h.not_consumed hlive, fun _ =>
          ⟨_, _, hauth⟩⟩, by simp, ?_, ?_, fun ev hev => ?_⟩
        · obtain ⟨m, hm⟩ := hrec.held
          exact ⟨m, by rw [huid, hinc]; exact List.mem_append_left _ hm⟩
        · rw [hstatus]
          exact List.mem_append_left _ (h.zombie _ _ hzombie)
        · exact h.not_pending hlive ev (by simpa using hev)
      answered := by
        refine answered_concat (answered_concat h.answered fun y hdue => ?_) fun y hdue => ?_ <;>
        · obtain ⟨epoch, ev, heq, -⟩ := hdue
          cases heq
      outstanding := fun ev hout => by
        rcases outstanding_concat.mp hout with ⟨child, heq⟩ | ⟨hout, -⟩
        · cases heq
          refine ⟨_, by rw [huid, getElem?_insert_map, if_pos rfl], ?_⟩
          simp [SessionEntry.exited, hinc]
        · rcases outstanding_concat.mp hout with ⟨child, heq⟩ | ⟨hout, -⟩
          · cases heq
          · obtain ⟨o, ho, hrest⟩ := h.outstanding ev hout
            refine ⟨o, ?_, hrest⟩
            rw [getElem?_insert_map, if_neg ?_]
            · exact ho
            · rintro rfl
              rw [he, Option.some.injEq] at ho
              subst ho
              simp [hexit] at hrest
      records := fun u o ho => by
        rw [getElem?_insert_map] at ho
        split at ho
        · rename_i hu
          subst hu
          simp only [Option.some.injEq] at ho
          subst ho
          refine ⟨?_, fun hx => ?_, fun x hx => ?_, fun _ => hauth.mono hpre, fun hr => ?_,
            fun hl => ?_⟩
          · exact hrec.held.imp fun m hm => hpre.subset hm
          · simp [SessionEntry.exited] at hx
          · simp only [SessionEntry.exited, Option.some.injEq] at hx
            subst hx
            exact ⟨event, huid, hinc, rfl, List.mem_append_right _ (by simp [SessionEntry.exited]),
              .inl rfl⟩
          · exact hpre.subset (hrec.ready hr)
          · simp [SessionEntry.exited] at hl
        · rename_i hu
          have hne := h.child_ne he ho hu
          exact (h.records u o ho).mono hpre (by simp [Function.update_of_ne hne])
            (by simp [Function.update_of_ne hne]) fun _ => rfl
      present := fun c u i m hm => by
        simp only [List.append_assoc, List.mem_append, List.mem_singleton, reduceCtorEq,
          or_false] at hm
        rcases h.present c u i m hm with ⟨o, ho, hrest⟩ | hgone
        · left
          simp only [getElem?_insert_map]
          split
          · rename_i hu
            rw [hu, he, Option.some.injEq] at ho
            subst ho
            exact ⟨_, rfl, hrest⟩
          · exact ⟨o, ho, hrest⟩
        · exact .inr (hgone.imp (hpre.subset ·) (hpre.subset ·))
      minted := fun c u i m hm => h.minted c u i m (by simpa using hm)
      reaped := fun c => by
        by_cases hc : c = e.pidfd.child
        · subst hc
          simp
        · simp [h.reaped c, hc]
      zombie := fun c st hz => by
        by_cases hc : c = e.pidfd.child
        · subst hc
          simp at hz
        · simp only [Function.update_of_ne hc] at hz
          exact hpre.subset (h.zombie c st hz)
      unborn := fun c hc => by
        have hne : c ≠ e.pidfd.child := by
          rintro rfl
          rw [h.unborn _ hc] at hzombie
          cases hzombie
        simpa only [Function.update_of_ne hne] using h.unborn c hc
      delivered := fun c hc => by
        simp only [List.append_assoc, List.mem_append, List.mem_singleton, reduceCtorEq, or_false,
          Happening.consumed.injEq, and_true] at hc
        rcases hc with hc | rfl
        · exact (h.delivered c hc).imp fun _ hp => hpre.subset hp
        · exact ⟨event, by simp⟩ }

/-- A pending event is queued for the generation that armed its record. -/
theorem send (h : Books b) {uid : String} {e : SessionEntry} {event : ExitEventBody}
    (he : b.sessions[uid]? = some e) (hready : e.deliveryReady)
    (hpend : ∃ at', e.exit = some ⟨at', some event⟩) :
    Books { b with history := b.history ++ [.sent b.epoch event] } := by
  have hrec := h.records uid e he
  obtain ⟨at', hexit⟩ := hpend
  obtain ⟨ev, huid, hinc, -, hp, hstate⟩ := hrec.gone _ hexit
  have hev : event = ev := by simpa using hstate
  subst hev
  exact
    { allowed := justified_concat.mpr ⟨h.allowed, by rw [huid, hinc]; exact hrec.ready hready, _, hp⟩
      answered := answered_concat h.answered fun y hdue => by
        obtain ⟨epoch, event, heq, -⟩ := hdue
        cases heq
      outstanding := fun ev hout => by
        rcases outstanding_concat.mp hout with ⟨child, heq⟩ | ⟨hout, -⟩
        · cases heq
        · exact h.outstanding ev hout
      records := fun u o ho => (h.records u o ho).mono (List.prefix_append _ _) id id fun _ => rfl
      present := fun c u i m hm => by simpa using h.present c u i m (by simpa using hm)
      minted := fun c u i m hm => h.minted c u i m (by simpa using hm)
      reaped := fun c => by simpa using h.reaped c
      zombie := fun c st hz => by simpa using h.zombie c st hz
      unborn := h.unborn
      delivered := fun c hc => by simpa using h.delivered c (by simpa using hc) }

/-! ### `arm_reap` -/

/-- What an accepted `arm_reap` calls for is the pending event of its record. -/
theorem due_armed (h : Books b) {uid : String} {e : SessionEntry}
    (he : b.sessions[uid]? = some e) {y : Happening}
    (hdue : Due b.history (.armed b.epoch uid e.incarnation) y) :
    ∃ event, y = .sent b.epoch event ∧ e.exit = some ⟨event.exitedAt, some event⟩ := by
  obtain ⟨epoch, event, heq, rfl, hout⟩ := hdue
  simp only [Happening.armed.injEq] at heq
  obtain ⟨rfl, huid, -⟩ := heq
  exact ⟨event, rfl, (h.outstanding_of he hout huid.symm).2⟩

/-- The history facts of an accepted `arm_reap` that calls for nothing more. -/
theorem noteArmed (h : Books b) {uid : String} {incarnation : Nat}
    (hanswer : Answered Due (b.history ++ [.armed b.epoch uid incarnation])) :
    Books { b with history := b.history ++ [.armed b.epoch uid incarnation] } where
  allowed := justified_concat.mpr ⟨h.allowed, trivial⟩
  answered := hanswer
  outstanding ev hout := by
    rcases outstanding_concat.mp hout with ⟨child, heq⟩ | ⟨hout, -⟩
    · cases heq
    · exact h.outstanding ev hout
  records u o ho := (h.records u o ho).mono (List.prefix_append _ _) id id fun _ => rfl
  present c u i m hm := by simpa using h.present c u i m (by simpa using hm)
  minted c u i m hm := h.minted c u i m (by simpa using hm)
  reaped c := by simpa using h.reaped c
  zombie c st hz := by simpa using h.zombie c st hz
  unborn := h.unborn
  delivered c hc := by simpa using h.delivered c (by simpa using hc)

/-- The record that `arm_reap` leaves. -/
theorem armedRecord (h : Books b) {uid : String} {e : SessionEntry} (body : ArmReapBody)
    (he : b.sessions[uid]? = some e) (hhist : .armed b.epoch uid e.incarnation ∈ b.history) :
    Record b uid (e.armedBy body) := by
  have hrec := h.records uid e he
  exact ⟨hrec.held, hrec.live, hrec.gone, fun _ => ⟨hrec.held, .inl ⟨_, hhist⟩⟩, fun _ => hhist,
    hrec.latched⟩

/-- `arm_reap` on a record with no pending event. -/
theorem arm (h : Books b) {uid : String} {e : SessionEntry} (body : ArmReapBody)
    (he : b.sessions[uid]? = some e) (hnone : ∀ at' ev, e.exit ≠ some ⟨at', some ev⟩) :
    Books { b with
      sessions := b.sessions.insert uid (e.armedBy body)
      history := b.history ++ [.armed b.epoch uid e.incarnation] } := by
  have harmed := @Books.noteArmed _ h uid e.incarnation
    (answered_concat h.answered fun y hdue => by
      obtain ⟨event, -, hexit⟩ := h.due_armed he hdue
      exact hnone _ _ hexit)
  exact harmed.rewrite he rfl rfl rfl (harmed.armedRecord body he (by simp))

/-- `arm_reap` on a record with a pending event, which is queued again. -/
theorem armSend (h : Books b) {uid : String} {e : SessionEntry} (body : ArmReapBody)
    (he : b.sessions[uid]? = some e) {at' : Nat} {event : ExitEventBody}
    (hexit : e.exit = some ⟨at', some event⟩) :
    Books { b with
      sessions := b.sessions.insert uid (e.armedBy body)
      history := b.history ++ [.armed b.epoch uid e.incarnation] ++ [.sent b.epoch event] } := by
  obtain ⟨ev, huid, hinc, -, hp, hstate⟩ := (h.records uid e he).gone _ hexit
  have hev : event = ev := by simpa using hstate
  subst hev
  have hall : Justified Allowed
      (b.history ++ [.armed b.epoch uid e.incarnation] ++ [.sent b.epoch event]) :=
    justified_concat.mpr ⟨justified_concat.mpr ⟨h.allowed, trivial⟩,
      by rw [huid, hinc]; simp, _, List.mem_append_left _ hp⟩
  have hans : Answered Due
      (b.history ++ [.armed b.epoch uid e.incarnation] ++ [.sent b.epoch event]) :=
    answered_concat_pair h.answered
      (fun z hdue => by
        obtain ⟨o, rfl, ho⟩ := h.due_armed he hdue
        have : event = o := by simpa [hexit] using congrArg (Option.bind · ExitRec.pending) ho
        rw [this])
      fun z hdue => by
        obtain ⟨epoch, o, heq, -⟩ := hdue
        cases heq
  have hpre : b.history <+:
      b.history ++ [.armed b.epoch uid e.incarnation] ++ [.sent b.epoch event] := by
    rw [List.append_assoc]
    exact List.prefix_append _ _
  have hsent : Books { b with
      history := b.history ++ [.armed b.epoch uid e.incarnation] ++ [.sent b.epoch event] } :=
    { allowed := hall
      answered := hans
      outstanding := fun ev hout => by
        rcases outstanding_concat.mp hout with ⟨child, heq⟩ | ⟨hout, -⟩
        · cases heq
        · rcases outstanding_concat.mp hout with ⟨child, heq⟩ | ⟨hout, -⟩
          · cases heq
          · exact h.outstanding ev hout
      records := fun u o ho => (h.records u o ho).mono hpre id id fun _ => rfl
      present := fun c u i m hm => by simpa using h.present c u i m (by simpa using hm)
      minted := fun c u i m hm => h.minted c u i m (by simpa using hm)
      reaped := fun c => by simpa using h.reaped c
      zombie := fun c st hz => by simpa using h.zombie c st hz
      unborn := h.unborn
      delivered := fun c hc => by simpa using h.delivered c (by simpa using hc) }
  exact hsent.rewrite he rfl rfl rfl (hsent.armedRecord body he (by simp))

/-! ### Leaving -/

/-- The event of a record is acknowledged. -/
theorem ack (h : Books b) {uid : String} {e : SessionEntry} (he : b.sessions[uid]? = some e) :
    Books { b with
      sessions := b.sessions.insert uid e.acked
      history := b.history ++ [.acked uid e.incarnation] } where
  allowed := justified_concat.mpr ⟨h.allowed, trivial⟩
  answered := answered_concat h.answered fun y hdue => by
    obtain ⟨epoch, o, heq, -⟩ := hdue
    cases heq
  outstanding ev hout := by
    rcases outstanding_concat.mp hout with ⟨child, heq⟩ | ⟨hout, hopen⟩
    · cases heq
    · obtain ⟨o, ho, hrest⟩ := h.outstanding ev hout
      refine ⟨o, ?_, hrest⟩
      rw [getElem?_insert_map, if_neg ?_]
      · exact ho
      · rintro rfl
        rw [he, Option.some.injEq] at ho
        subst ho
        exact hopen (.inl (by rw [hrest.1]))
  records u o ho := by
    rw [getElem?_insert_map] at ho
    split at ho
    · rename_i hu
      subst hu
      simp only [Option.some.injEq] at ho
      subst ho
      have hrec := @Record.mono _
        { b with history := b.history ++ [.acked u e.incarnation] } _ _ (h.records u e he)
        (List.prefix_append _ _) id id fun _ => rfl
      refine ⟨hrec.held, fun hx => hrec.live ?_, fun x hx => ?_, hrec.armed, hrec.ready,
        hrec.latched⟩
      · simpa [SessionEntry.acked] using hx
      · simp only [SessionEntry.acked, Option.map_eq_some_iff] at hx
        obtain ⟨x', hx', rfl⟩ := hx
        obtain ⟨ev, huid, hinc, hat, hp, -⟩ := (h.records u e he).gone x' hx'
        obtain ⟨a, c, hl⟩ := List.append_of_mem hp
        refine ⟨ev, huid, hinc, hat, List.mem_append_left _ hp, .inr ⟨rfl, ev, huid, hinc, a,
          c ++ [.acked u e.incarnation], ?_, by simp [SessionEntry.acked]⟩⟩
        simp [hl, SessionEntry.acked]
    · exact (h.records u o ho).mono (List.prefix_append _ _) id id fun _ => rfl
  present c u i m hm := by
    simp only [List.mem_append, List.mem_singleton, reduceCtorEq, or_false] at hm
    rcases h.present c u i m hm with ⟨o, ho, hrest⟩ | hgone
    · left
      simp only [getElem?_insert_map]
      split
      · rename_i hu
        rw [hu, he, Option.some.injEq] at ho
        subst ho
        exact ⟨_, rfl, hrest⟩
      · exact ⟨o, ho, hrest⟩
    · exact .inr (hgone.imp (List.mem_append_left _) (List.mem_append_left _))
  minted c u i m hm := h.minted c u i m (by simpa using hm)
  reaped c := by simpa using h.reaped c
  zombie c st hz := by simpa using h.zombie c st hz
  unborn := h.unborn
  delivered c hc := by simpa using h.delivered c (by simpa using hc)

/-- A record is dropped with a last happening: an abort, or the forgetting of an acknowledged
exit. -/
theorem drop (h : Books b) {uid : String} {e : SessionEntry} (he : b.sessions[uid]? = some e)
    {x : Happening} (hx : x = .aborted uid e.incarnation ∨
      x = .forgotten uid e.incarnation ∧ ∃ at', e.exit = some ⟨at', none⟩) :
    Books { b with sessions := b.sessions.erase uid, history := b.history ++ [x] } where
  allowed := by
    refine justified_concat.mpr ⟨h.allowed, ?_⟩
    rcases hx with rfl | ⟨rfl, at', hexit⟩
    · trivial
    · obtain ⟨ev, -, -, -, -, hstate⟩ := (h.records uid e he).gone _ hexit
      exact ⟨_, (hstate.resolve_left (by simp)).2⟩
  answered := answered_concat h.answered fun y hdue => by
    obtain ⟨epoch, o, rfl, -⟩ := hdue
    simp at hx
  outstanding ev hout := by
    rcases outstanding_concat.mp hout with ⟨child, rfl⟩ | ⟨hout, hopen⟩
    · simp at hx
    · obtain ⟨o, ho, hrest⟩ := h.outstanding ev hout
      refine ⟨o, ?_, hrest⟩
      rw [getElem?_erase_map, if_neg ?_]
      · exact ho
      · rintro rfl
        rw [he, Option.some.injEq] at ho
        subst ho
        rcases hx with rfl | ⟨-, at', hexit⟩
        · exact hopen (.inr (by rw [hrest.1]))
        · simp [hexit] at hrest
  records u o ho := by
    rw [getElem?_erase_map] at ho
    split at ho
    · cases ho
    · exact (h.records u o ho).mono (List.prefix_append _ _) id id fun _ => rfl
  present c u i m hm := by
    have hm' : .held c u i m ∈ b.history := by
      rcases List.mem_append.mp hm with hm | hm
      · exact hm
      · rw [← List.mem_singleton.mp hm] at hx
        simp at hx
    rcases h.present c u i m hm' with ⟨o, ho, hinc, hchild⟩ | hgone
    · simp only [getElem?_erase_map]
      by_cases hu : u = uid
      · subst hu
        rw [he, Option.some.injEq] at ho
        subst ho
        right
        rcases hx with rfl | ⟨rfl, -⟩
        · exact .inl (by simp [hinc])
        · exact .inr (by simp [hinc])
      · exact .inl ⟨o, by rw [if_neg hu]; exact ho, hinc, hchild⟩
    · exact .inr (hgone.imp (List.mem_append_left _) (List.mem_append_left _))
  minted c u i m hm := by
    refine h.minted c u i m ?_
    rcases hx with rfl | ⟨rfl, -⟩ <;> simpa using hm
  reaped c := by
    rw [h.reaped c]
    rcases hx with rfl | ⟨rfl, -⟩ <;> simp
  zombie c st hz := List.mem_append_left _ (h.zombie c st hz)
  unborn := h.unborn
  delivered c hc := by
    have hc' : .consumed c .exit ∈ b.history := by
      rcases hx with rfl | ⟨rfl, -⟩ <;> simpa using hc
    exact (h.delivered c hc').imp fun _ hp => List.mem_append_left _ hp

/-- A child that has no record any more is waited for. -/
theorem waitFor (h : Books b) {child : Nat} (hborn : child < b.kernel.forked)
    (hlive : b.kernel.procs child ≠ .reaped)
    (hnone : ∀ (uid : String) e, b.sessions[uid]? = some e → e.pidfd.child ≠ child)
    {reaper : Reaper} (hreaper : reaper ≠ .exit) :
    Books { b with
      kernel := { b.kernel with procs := Function.update b.kernel.procs child .reaped }
      history := b.history ++ [.consumed child reaper] } where
  allowed := justified_concat.mpr
    ⟨h.allowed, h.not_consumed hlive, fun hr => absurd hr hreaper⟩
  answered := answered_concat h.answered fun y hdue => by
    obtain ⟨epoch, o, heq, -⟩ := hdue
    cases heq
  outstanding ev hout := by
    rcases outstanding_concat.mp hout with ⟨child, heq⟩ | ⟨hout, -⟩
    · cases heq
    · exact h.outstanding ev hout
  records u o ho := by
    have hne := hnone u o ho
    exact (h.records u o ho).mono (List.prefix_append _ _) (by simp [Function.update_of_ne hne])
      (by simp [Function.update_of_ne hne]) fun _ => rfl
  present c u i m hm := by simpa using h.present c u i m (by simpa using hm)
  minted c u i m hm := h.minted c u i m (by simpa using hm)
  reaped c := by
    by_cases hc : c = child
    · subst hc
      simp
    · simp [h.reaped c, hc]
  zombie c st hz := by
    by_cases hc : c = child
    · subst hc
      simp at hz
    · simp only [Function.update_of_ne hc] at hz
      simpa using h.zombie c st hz
  unborn c hc := by
    have hne : c ≠ child := (hborn.trans_le hc).ne'
    simpa only [Function.update_of_ne hne] using h.unborn c hc
  delivered c hc := by
    simp only [List.mem_append, List.mem_singleton, Happening.consumed.injEq] at hc
    rcases hc with hc | ⟨-, rfl⟩
    · simpa using h.delivered c hc
    · exact absurd rfl hreaper

/-! ### Generations -/

/-- The records are replaced one by one, each as an exit of its child sees it unchanged. -/
theorem replace (h : Books b) {sessions : Map SessionEntry} {epoch : Nat}
    (hof : ∀ (uid : String) (e' : SessionEntry), sessions[uid]? = some e' →
      ∃ e : SessionEntry, b.sessions[uid]? = some e ∧
      e'.pidfd.child = e.pidfd.child ∧ e'.incarnation = e.incarnation ∧ e'.exit = e.exit ∧
      e'.reapArmed = e.reapArmed ∧ e'.exitLatched = e.exitLatched ∧
      (e'.deliveryReady → e.deliveryReady ∧ epoch = b.epoch))
    (hto : ∀ (uid : String) (e : SessionEntry), b.sessions[uid]? = some e →
      ∃ e' : SessionEntry, sessions[uid]? = some e' ∧
      e'.pidfd.child = e.pidfd.child ∧ e'.incarnation = e.incarnation ∧ e'.exit = e.exit) :
    Books { b with sessions := sessions, epoch := epoch } where
  allowed := h.allowed
  answered := h.answered
  outstanding ev hout := by
    obtain ⟨e, he, hinc, hexit⟩ := h.outstanding ev hout
    obtain ⟨e', he', -, hinc', hexit'⟩ := hto _ _ he
    exact ⟨e', he', hinc'.trans hinc, hexit'.trans hexit⟩
  records u e' he' := by
    obtain ⟨e, he, hchild, hinc, hexit, harmed, hlatched, hready⟩ := hof u e' he'
    have hrec := h.records u e he
    refine ⟨?_, ?_, ?_, ?_, ?_, ?_⟩
    · rw [hchild, hinc]
      exact hrec.held
    · rw [hexit, hchild]
      exact hrec.live
    · rw [hexit, hchild, hinc]
      exact hrec.gone
    · rw [harmed, hchild, hinc]
      exact hrec.armed
    · intro hr
      obtain ⟨hr', rfl⟩ := hready hr
      rw [hinc]
      exact hrec.ready hr'
    · rw [hlatched, hchild]
      exact hrec.latched
  present c u i m hm := by
    refine (h.present c u i m hm).imp_left ?_
    rintro ⟨e, he, hinc, hchild⟩
    obtain ⟨e', he', hchild', hinc', -⟩ := hto u e he
    exact ⟨e', he', hinc'.trans hinc, hchild'.trans hchild⟩
  minted := h.minted
  reaped := h.reaped
  zombie := h.zombie
  unborn := h.unborn
  delivered := h.delivered

end Books

end Holder
