import Mathlib
import ClaudeManager.Board.Told
import ClaudeManager.Board.Grants

/-!
# Holds are handed back

* `Org.handBackHolds` — every open item a session holds goes to another one, each by a write of
  its own that may be refused
* `handWrite_owner`, `handWrite_role` — the holders such a write leaves
-/

namespace Board

open Json Python Containers Program BoardTx

/-! ## The holds of a session -/

/-- Neither closed nor archived. -/
def Item.isOpen (it : Item) : Bool :=
  it.closedAt.isNone && it.archivedAt.isNone && it.linkArchivedAt.isNone

/-- The open items a session holds, with its role. -/
def heldBy (source : String) (items : Items) : List (Nat × Option Role) :=
  items.toList.flatMap fun e =>
    if e.2.isOpen then (e.2.holders.filter fun h => h.pid = source).map fun h => (e.1, h.role)
    else []

/-- What `session_states` says of a session. -/
structure SessionRow where
  pid : String
  name : Option String
  uid : Option String
  daemon : Option String

/-- The receiver, as its session's row or its id names it. -/
def receiver (sessions : List SessionRow) (pid : String) : Holder :=
  let parts := pid.splitOn ":"
  match sessions.find? fun row => row.pid = pid with
  | some row => ⟨pid, ofText row.name, ofText row.uid, ofText row.daemon, none, none, none, none, none⟩
  | none =>
    let daemon := if 3 ≤ parts.length then parts[1]? else none
    ⟨pid, .null, ofText parts.getLast?, ofText daemon, none, none, none, none, none⟩

/-- One hold goes over: an owner's transfers ownership, any other is added in its role. -/
def handWrite (source : String) (target : Holder) (reason : String) (n : Nat) :
    Option Role → Write
  | some .owner => ⟨n, [], none, [], [source], some reason, false, false, false, some target⟩
  | role => ⟨n, [], none, [{ target with role := role }], [source], some reason, false, false, false,
      none⟩

/-- A hold, as it is listed. -/
structure Hold where
  board : String
  n : Nat
  role : Option Role
  deriving DecidableEq

/-- What was handed back so far, and what was kept. -/
structure Handing where
  org : Org
  handed : List Hold
  kept : List Hold

section

variable [Runtime]

/-- One savepoint: an item the rules refuse keeps its holder. -/
def Handing.item (around : Around) (actor : Actor) (source : String) (target : Holder)
    (reason ref : String) (b : Handing) (e : Nat × Option Role) : Except Fault Handing :=
  match b.org.transact around ref actor fun tx => tx.apply (handWrite source target reason e.1 e.2) with
  | .ok o => .ok { b with org := o, handed := b.handed ++ [⟨ref, e.1, e.2⟩] }
  | .error (.refused _ _ _ _) => .ok { b with kept := b.kept ++ [⟨ref, e.1, e.2⟩] }
  | .error f => .error f

/-- The holds of one board. Without a receiver they are kept. -/
def Handing.board (around : Around) (actor : Actor) (source : String) (target : Option Holder)
    (reason : String) (b : Handing) (ref : String) : Except Fault Handing := do
  let s ← b.org.board ref
  match target with
  | none =>
    return { b with kept := b.kept ++ (heldBy source s.items).map fun e => ⟨ref, e.1, e.2⟩ }
  | some target => (heldBy source s.items).foldlM (fun b e => b.item around actor source target reason ref e) b

/-- `hand_back_holds`: the boards are taken as they are at the start. -/
def Org.handBackHolds (o : Org) (around : Around) (actor : Actor) (sessions : List SessionRow)
    (source : String) (target : Option String) (reason : String) : Except Fault Handing :=
  let target := (target.filter fun pid => pid ≠ "").map (receiver sessions)
  let refs := (o.boards.toList.filter fun e => heldBy source e.2.items ≠ []).map Prod.fst
  refs.foldlM (fun b ref => b.board around actor source target reason ref) ⟨o, [], []⟩

end

/-! ## The holders it leaves -/

/-- A holder's session and role. -/
def Holder.post (h : Holder) : String × Option Role := (h.pid, h.role)

variable {source reason : String} {target h : Holder} {n : Nat} {role : Option Role}
  {l s : List Holder} {it : Item}

/-- Holders that are all different are left as they are. -/
theorem dedupe_nodup : ∀ {l s : List Holder}, ((s ++ l).map Holder.pid).Nodup →
    l.foldl mention s = s ++ l
  | [], s, _ => by rw [List.foldl_nil, List.append_nil]
  | h :: l, s, hnodup => by
    have hnew : s.any (fun p => p.pid = h.pid) = false := by
      rw [List.any_eq_false]
      intro p hp heq
      rw [List.map_append, List.nodup_append] at hnodup
      refine hnodup.2.2 p.pid (List.mem_map_of_mem hp) h.pid ?_ (by simpa using heq)
      exact List.mem_map_of_mem List.mem_cons_self
    have hmention : mention s h = s ++ [h] := by
      unfold mention
      rw [hnew]
      rfl
    have hrest : ((s ++ [h] ++ l).map Holder.pid).Nodup := by
      rw [List.append_assoc]
      exact hnodup
    rw [List.foldl_cons, hmention, dedupe_nodup hrest, List.append_assoc]
    rfl

/-- A holder named once more without evidence changes nothing where it is one already. -/
theorem mention_again (hevidence : h.attribution = none) (hmem : h.pid ∈ l.map Holder.pid) :
    mention l h = l := by
  obtain ⟨k, hk, hpid⟩ := List.mem_map.mp hmem
  have hany : l.any (fun p => p.pid = h.pid) = true :=
    List.any_eq_true.mpr ⟨k, hk, decide_eq_true hpid⟩
  unfold mention
  rw [hany, if_pos rfl]
  refine (List.map_congr_left fun p _ => ?_).trans (List.map_id l)
  unfold Holder.withEvidence
  rw [hevidence]
  simp

theorem dedupe_add (hnodup : (l.map Holder.pid).Nodup) (hevidence : h.attribution = none) :
    dedupeHolders (l ++ [h]) = if h.pid ∈ l.map Holder.pid then l else l ++ [h] := by
  have hfirst : l.foldl mention [] = l := dedupe_nodup hnodup
  rw [dedupeHolders_eq, List.foldl_append, hfirst, List.foldl_cons, List.foldl_nil]
  split
  · rename_i hmem
    exact mention_again hevidence hmem
  · rename_i hmem
    unfold mention
    have hnew : l.any (fun p => p.pid = h.pid) = false := by
      rw [List.any_eq_false]
      intro p hp heq
      exact hmem (List.mem_map.mpr ⟨p, hp, by simpa using heq⟩)
    rw [hnew]
    rfl

/-- Holders with a role, and holders that were there, keep what they have. -/
theorem assignRoles_settled {prevPids : List String} :
    ∀ {l : List Holder} {hasOwner : Bool}, (∀ h ∈ l, h.role ≠ none ∨ h.pid ∈ prevPids) →
      assignRoles prevPids false hasOwner l = l
  | [], _, _ => rfl
  | k :: l, hasOwner, hall => by
    unfold assignRoles
    have hk : k.role ≠ none ∨ (k.pid ∈ prevPids ∧ false = false) :=
      (hall k List.mem_cons_self).imp_right fun hmem => ⟨hmem, rfl⟩
    rw [if_pos hk, assignRoles_settled fun h hh => hall h (List.mem_cons_of_mem k hh)]

theorem assignRoles_concat {prevPids : List String} {hasOwner : Bool} :
    ∀ {l : List Holder}, (∀ h ∈ l, h.role ≠ none ∨ h.pid ∈ prevPids) →
      assignRoles prevPids false hasOwner (l ++ [h]) = l ++ assignRoles prevPids false hasOwner [h]
  | [], _ => rfl
  | k :: l, hall => by
    rw [List.cons_append, assignRoles]
    have hk : k.role ≠ none ∨ (k.pid ∈ prevPids ∧ false = false) :=
      (hall k List.mem_cons_self).imp_right fun hmem => ⟨hmem, rfl⟩
    rw [if_pos hk, assignRoles_concat fun h hh => hall h (List.mem_cons_of_mem k hh)]
    rfl

theorem map_keepEvidence {current : List Holder} :
    (l.map (keepEvidence current)).map Holder.post = l.map Holder.post := by
  rw [List.map_map]
  refine List.map_congr_left fun h _ => ?_
  show ((keepEvidence current h).pid, (keepEvidence current h).role) = (h.pid, h.role)
  rw [keepEvidence_pid, keepEvidence_role]

/-- What is left of a role beside an owner that is named. -/
def Holder.demoted (h : Holder) : String × Option Role :=
  (h.pid, if h.owns || !h.settled then some .contributor else h.role)

/-- An owner that stays needs no successor. -/
theorem succeed_owned {prevOwner : Option String} (h : (l.any Holder.owns) = true ∨ prevOwner = none) :
    succeed prevOwner l = l := by
  unfold succeed
  split
  · rename_i k
    split
    · rename_i hc
      rcases h with h | h
      · rw [List.any_cons, List.any_nil, Bool.or_false] at h
        rw [h] at hc
        exact absurd hc.2.1 (by simp)
      · rw [h] at hc
        exact absurd hc.1 (by simp [isSet])
    · rfl
  · rfl

theorem transferOwner_posts {current new : List Holder} :
    (transferOwner target current new).map Holder.post = (target.pid, some .owner) ::
      (new.filter fun h => h.pid ≠ target.pid).map Holder.demoted := by
  have hexisting : ((current.find? fun h => h.pid = target.pid).getD target).pid = target.pid := by
    cases hfind : current.find? fun h => h.pid = target.pid with
    | none => rfl
    | some k => simpa using List.find?_some hfind
  unfold transferOwner
  rw [List.map_cons, List.map_map]
  refine List.cons_eq_cons.mpr ⟨?_, List.map_congr_left fun h _ => ?_⟩
  · split <;> exact Prod.ext hexisting rfl
  · unfold Holder.demoted
    simp only [Function.comp_apply]
    split <;> rfl

/-- An owner is handed over: the receiver owns the item, and nobody else does. -/
theorem handWrite_owner (hnodup : (it.holders.map Holder.pid).Nodup) :
    (newHolders (handWrite source target reason n (some .owner)) it).map Holder.post =
      (target.pid, some .owner) ::
        (it.holders.filter fun h => h.pid ≠ source ∧ h.pid ≠ target.pid).map Holder.demoted := by
  have hdedupe : dedupeHolders it.holders = it.holders := dedupe_nodup hnodup
  obtain ⟨owned, howned⟩ : ∃ owned, transferOwner target it.holders
    (it.holders.filter fun h => h.pid ∉ [source]) = owned := ⟨_, rfl⟩
  have hpost : owned.map Holder.post = (target.pid, some .owner) ::
      (it.holders.filter fun h => h.pid ≠ source ∧ h.pid ≠ target.pid).map Holder.demoted := by
    rw [← howned, transferOwner_posts, List.filter_filter]
    refine congrArg (fun p => _ :: (it.holders.filter p).map Holder.demoted) (funext fun h => ?_)
    simp [Bool.and_comm]
  have hkept : (owned.map (keepEvidence it.holders)).map Holder.post = _ := map_keepEvidence.trans hpost
  have hmem : ∀ h ∈ owned.map (keepEvidence it.holders), h.role ≠ none := by
    intro h hh hnone
    have hin : h.post ∈ (owned.map (keepEvidence it.holders)).map Holder.post :=
      List.mem_map_of_mem hh
    have hpair : h.post = (h.pid, none) := by
      unfold Holder.post
      rw [hnone]
    rw [hkept, hpair] at hin
    rcases List.mem_cons.mp hin with heq | hin
    · cases congrArg Prod.snd heq
    · obtain ⟨k, -, hk⟩ := List.mem_map.mp hin
      have hrole : (if (k.owns || !k.settled) = true then some Role.contributor else k.role) = none :=
        congrArg Prod.snd hk
      split at hrole
      · cases hrole
      · rename_i hc
        simp [Holder.settled, hrole] at hc
  have howns : (owned.map (keepEvidence it.holders)).any Holder.owns = true := by
    rw [← howned]
    unfold transferOwner
    rw [List.map_cons, List.any_cons]
    have hhead : ∀ k : Holder, k.role = some .owner → (keepEvidence it.holders k).owns = true := by
      intro k hk
      unfold Holder.owns
      rw [keepEvidence_role, hk]
      rfl
    rw [hhead]
    · rfl
    · split <;> rfl
  have hassign : assignRoles (it.holders.map Holder.pid) false true
      (owned.map (keepEvidence it.holders)) = owned.map (keepEvidence it.holders) :=
    assignRoles_settled fun h hh => .inl (hmem h hh)
  have hnew : newHolders (handWrite source target reason n (some .owner)) it =
      owned.map (keepEvidence it.holders) := by
    unfold newHolders handWrite Write.prevPids
    simp only [Option.getD_none, List.append_nil, hdedupe, howned, howns, Option.isSome_none,
      Bool.false_eq_true, if_false, hassign]
    exact succeed_owned (.inl howns)
  rw [hnew, hkept]

/-- Where the receiver holds the item already it keeps its role, and else it gets one. -/
def received (role : Option Role) (current : List Holder) : Role :=
  role.getD (if current.any Holder.owns then .contributor else .owner)

/-- Any other hold is handed over: it goes, and the receiver is among the holders. -/
theorem handWrite_role (hnodup : (it.holders.map Holder.pid).Nodup) (hne : target.pid ≠ source)
    (hevidence : target.attribution = none) (hrole : role ≠ some .owner)
    (hsource : ∀ h ∈ it.holders, h.pid = source → h.role = role) :
    (newHolders (handWrite source target reason n role) it).map Holder.post =
      (it.holders.filter fun h => h.pid ≠ source).map Holder.post ++
        if target.pid ∈ it.holders.map Holder.pid then []
        else [(target.pid, some (received role it.holders))] := by
  have hwrite : handWrite source target reason n role = ⟨n, [], none, [{ target with role := role }],
      [source], some reason, false, false, false, none⟩ := by
    unfold handWrite
    split
    · exact absurd rfl hrole
    · rfl
  have hdedupe : dedupeHolders (it.holders ++ [{ target with role := role }]) = _ :=
    dedupe_add hnodup (h := { target with role := role }) hevidence
  obtain ⟨kept, hkept⟩ : ∃ kept, (it.holders.filter fun h => h.pid ∉ [source]) = kept := ⟨_, rfl⟩
  have hfilter : (it.holders.filter fun h => h.pid ≠ source) = kept := by
    rw [← hkept]
    exact congrArg (fun p => it.holders.filter p) (funext fun h => by simp)
  -- the owner is not the one that goes
  have howner : kept.any Holder.owns = it.holders.any Holder.owns := by
    rw [← hfilter, Bool.eq_iff_iff, List.any_eq_true, List.any_eq_true]
    constructor
    · rintro ⟨h, hh, howns⟩
      exact ⟨h, (List.mem_filter.mp hh).1, howns⟩
    · rintro ⟨h, hh, howns⟩
      refine ⟨h, List.mem_filter.mpr ⟨hh, decide_eq_true fun hpid => hrole ?_⟩, howns⟩
      rw [← hsource h hh hpid]
      simpa [Holder.owns] using howns
  have hprev : ∀ h ∈ kept.map (keepEvidence it.holders),
      h.role ≠ none ∨ h.pid ∈ it.holders.map Holder.pid := by
    intro h hh
    obtain ⟨k, hk, rfl⟩ := List.mem_map.mp hh
    rw [keepEvidence_pid]
    rw [← hfilter] at hk
    exact .inr (List.mem_map_of_mem (List.mem_filter.mp hk).1)
  have hposts : (kept.map (keepEvidence it.holders)).map Holder.post = kept.map Holder.post :=
    map_keepEvidence
  have howns : ∀ rest : List Holder, (it.holders.any Holder.owns = true →
      (kept.map (keepEvidence it.holders) ++ rest).any Holder.owns = true) := by
    intro rest hany
    rw [← howner, List.any_eq_true] at hany
    obtain ⟨k, hk, hkowns⟩ := hany
    refine List.any_eq_true.mpr ⟨keepEvidence it.holders k,
      List.mem_append_left _ (List.mem_map_of_mem hk), ?_⟩
    unfold Holder.owns
    rw [keepEvidence_role]
    exact hkowns
  have hsucceed : ∀ rest : List Holder, succeed (ownerOf it.holders)
      (kept.map (keepEvidence it.holders) ++ rest) = kept.map (keepEvidence it.holders) ++ rest := by
    intro rest
    refine succeed_owned ?_
    by_cases hany : it.holders.any Holder.owns = true
    · exact .inl (howns rest hany)
    · refine .inr ?_
      unfold ownerOf
      rw [List.find?_eq_none.mpr fun h hh hc => hany (List.any_eq_true.mpr ⟨h, hh, hc⟩)]
      rfl
  rw [hwrite, hfilter]
  unfold newHolders Write.prevPids
  simp only [Option.getD_none, Option.isSome_none, Bool.false_eq_true, if_false]
  rw [hdedupe]
  by_cases hmem : target.pid ∈ it.holders.map Holder.pid
  · simp only [if_pos hmem, hkept]
    rw [assignRoles_settled hprev]
    have hnone := hsucceed []
    rw [List.append_nil] at hnone
    rw [hnone, hposts, List.append_nil]
  · have hnew : ({ target with role := role } : Holder).pid ∉ [source] := by simpa using hne
    have hself : keepEvidence it.holders { target with role := role } = { target with role := role } := by
      unfold keepEvidence
      have hfind : it.holders.find? (fun k => k.pid = ({ target with role := role } : Holder).pid) =
          none := by
        refine List.find?_eq_none.mpr fun k hk hpid => hmem ?_
        exact List.mem_map.mpr ⟨k, hk, by simpa using hpid⟩
      rw [hfind]
    simp only [if_neg hmem, List.filter_append, hkept, List.filter_cons, List.filter_nil, hnew,
      not_false_eq_true, decide_true, if_true, List.map_append, List.map_cons, List.map_nil, hself]
    rw [assignRoles_concat hprev]
    obtain ⟨hasOwner, hhas⟩ : ∃ b, (kept.map (keepEvidence it.holders) ++
      [{ target with role := role }]).any Holder.owns = b := ⟨_, rfl⟩
    rw [hhas, hsucceed, List.map_append, hposts]
    refine congrArg (kept.map Holder.post ++ ·) ?_
    have hold : (kept.map (keepEvidence it.holders)).any Holder.owns = it.holders.any Holder.owns := by
      rw [← howner, List.any_map]
      refine congrArg kept.any (funext fun k => ?_)
      unfold Function.comp Holder.owns
      rw [keepEvidence_role]
    have hlast : Holder.owns { target with role := role } = false := by
      simpa [Holder.owns] using hrole
    have hhas' : hasOwner = it.holders.any Holder.owns := by
      rw [← hhas, List.any_append, hold, List.any_cons, List.any_nil, hlast]
      simp
    cases role with
    | some r =>
      rw [assignRoles_settled]
      · rfl
      · intro h hh
        obtain rfl := List.mem_singleton.mp hh
        exact .inl (Option.some_ne_none r)
    | none =>
      unfold assignRoles
      rw [if_neg]
      · rw [hhas']
        unfold received assignRoles
        cases it.holders.any Holder.owns <;> rfl
      · rintro (hc | hc)
        · exact hc rfl
        · exact hmem hc.1

end Board
