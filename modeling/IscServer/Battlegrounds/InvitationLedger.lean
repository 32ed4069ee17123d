import IscServer.Battlegrounds.Battleground
import IscServer.Library.Tally

/-!
# The Ledger of Invitations

What the invitation counters of an instance are about: who is queued on which invitation, who is
on the way and who is inside. A `Ledger` holds these three lists and the counters, and leaves out
everything else; each operation that moves a player from one list to another is a function on
ledgers. `Sound` says that the counters count and that every player's own record agrees with the
list it is in, and every operation keeps it.

## Main results

* `Ledger.Sound.invitedCount_toNat`, `Ledger.Sound.playersCount_toNat` — in a sound ledger the
  counters are the numbers of players, without a wrap of the 32 bits.
* `Ledger.Sound.leave`, `Ledger.Sound.arrive`, `Ledger.Sound.accept`, `Ledger.Sound.unqueue`,
  `Ledger.Sound.invite`, `Ledger.Sound.join` — the operations keep a ledger sound.
-/

namespace IscServer.Battlegrounds

open List Function Keyed

/-- Who is queued, with the instance invited to and the side, who is on the way to the instance and
who is inside; what every player knows about it; and the counters. -/
structure Ledger where
  instanceID : ℕ
  deleted : Bool
  queued : List (Guid × ℕ × Team)
  transit : List Guid
  inside : List (Guid × Team)
  ticket : Guid → Ticket
  playersCount : Team → UInt32
  invitedCount : Team → UInt32

namespace Ledger

variable {b : Ledger} {guid : Guid} {t : Team}

/-- How many players of a side are queued on an invitation to the instance. -/
def queuedCount (b : Ledger) (t : Team) : ℕ :=
  b.queued.countP fun q => q.2.1 = b.instanceID && q.2.2 = t

/-- How many players of a side are on the way. -/
def transitCount (b : Ledger) (t : Team) : ℕ := b.transit.countP fun g => (b.ticket g).getBGTeam = t

/-- How many players of a side are inside. -/
def insideCount (b : Ledger) (t : Team) : ℕ := b.inside.countP fun e => e.2 = t

/-- Two counters of 32 bits hold the numbers of the two sides. -/
def Counts (f : Team → UInt32) (n : Team → ℕ) : Prop := ∀ t, f t = UInt32.ofNat (n t)

variable {f : Team → UInt32} {n m : Team → ℕ} {side : Team}

/-- One less of a side. -/
theorem Counts.pred (h : Counts f n) (hm : ∀ t, n t = m t + if side = t then 1 else 0) :
    Counts (Function.update f side (f side - 1)) m := by
  intro t
  by_cases hside : t = side
  · subst hside
    rw [update_self, h t, hm t, if_pos rfl, UInt32.ofNat_add]
    exact UInt32.add_sub_cancel _ _
  · rw [update_of_ne hside, h t, hm t, if_neg (Ne.symm hside), Nat.add_zero]

/-- Some more of a side. -/
theorem Counts.add (h : Counts f n) (k : ℕ) (hm : ∀ t, m t = n t + if side = t then k else 0) :
    Counts (Function.update f side (f side + UInt32.ofNat k)) m := by
  intro t
  by_cases hside : t = side
  · subst hside
    rw [update_self, h t, hm t, if_pos rfl, UInt32.ofNat_add]
  · rw [update_of_ne hside, h t, hm t, if_neg (Ne.symm hside), Nat.add_zero]

theorem Counts.congr (h : Counts f n) (hm : ∀ t, m t = n t) : Counts f m := fun t => by
  rw [h t, hm t]

/-- The counters count, and every player's record agrees with the list it is in. -/
structure Sound (b : Ledger) : Prop where
  instanceID : b.instanceID ≠ 0
  queued_nodup : (b.queued.map Prod.fst).Nodup
  queued : ∀ q ∈ b.queued, (b.ticket q.1).connected = true ∧
    (b.ticket q.1).queueSlot = some q.2.1 ∧ (b.ticket q.1).bgInstanceID ≠ b.instanceID
  transit_nodup : b.transit.Nodup
  transit : ∀ g ∈ b.transit, (b.ticket g).connected = true ∧
    (b.ticket g).queueSlot = some b.instanceID ∧ (b.ticket g).bgInstanceID = b.instanceID
  inside_nodup : (b.inside.map Prod.fst).Nodup
  inside : ∀ e ∈ b.inside, e.1 ∉ b.transit ∧ (b.ticket e.1).bgInstanceID = b.instanceID ∧
    (b.ticket e.1).getBGTeam = e.2 ∧
    ((b.ticket e.1).connected = true → (b.ticket e.1).queueSlot = some b.instanceID)
  here : ∀ g, (b.ticket g).connected = true → (b.ticket g).bgInstanceID = b.instanceID →
    g ∈ b.transit ∨ g ∈ b.inside.map Prod.fst
  invitedCount : Counts b.invitedCount fun t =>
    b.queuedCount t + b.transitCount t + b.insideCount t
  playersCount : Counts b.playersCount b.insideCount
  deleted : b.deleted = true → b.transit = [] ∧ b.inside = [] ∧
    ∀ q ∈ b.queued, q.2.1 ≠ b.instanceID

/-! ### The counters do not wrap -/

variable {l : List Guid}

/-- There are fewer than 2³² players. -/
theorem length_lt (h : l.Nodup) : l.length < 2 ^ 32 := by
  have hinj : Function.Injective fun g : Guid => g.low.toNat := fun g g' hg =>
    Guid.ext (UInt32.toNat_inj.mp hg)
  have hsub : (l.map fun g => g.low.toNat).toFinset ⊆ Finset.Ico 1 (2 ^ 32) := by
    intro n hn
    obtain ⟨g, -, rfl⟩ := mem_map.mp (mem_toFinset.mp hn)
    have hne : g.low.toNat ≠ 0 := fun h0 => g.ne_zero (UInt32.toNat_inj.mp h0)
    have hlt := g.low.toNat_lt
    exact Finset.mem_Ico.mpr ⟨by omega, hlt⟩
  have hcard := Finset.card_le_card hsub
  rw [toFinset_card_of_nodup (h.map hinj), length_map, Nat.card_Ico] at hcard
  omega

section

variable (h : Sound b)
include h

theorem Sound.notMem_queued (hguid : (b.ticket guid).bgInstanceID = b.instanceID) :
    guid ∉ b.queued.map Prod.fst := by
  intro hmem
  obtain ⟨q, hq, rfl⟩ := mem_map.mp hmem
  exact (h.queued q hq).2.2 hguid

/-- The three lists together hold nobody twice. -/
theorem Sound.nodup : (b.queued.map Prod.fst ++ b.transit ++ b.inside.map Prod.fst).Nodup := by
  refine List.Nodup.append (List.Nodup.append h.queued_nodup h.transit_nodup ?_) h.inside_nodup ?_
  · exact fun g hq ht => h.notMem_queued (h.transit g ht).2.2 hq
  · intro g hg hi
    obtain ⟨e, he, rfl⟩ := mem_map.mp hi
    obtain ⟨hnot, hid, -, -⟩ := h.inside e he
    rcases mem_append.mp hg with hq | ht
    · exact h.notMem_queued hid hq
    · exact hnot ht

theorem Sound.total_lt (t : Team) :
    b.queuedCount t + b.transitCount t + b.insideCount t < 2 ^ 32 := by
  have hlt := length_lt h.nodup
  rw [length_append, length_append, length_map, length_map] at hlt
  have hq : b.queuedCount t ≤ b.queued.length := countP_le_length
  have ht : b.transitCount t ≤ b.transit.length := countP_le_length
  have hi : b.insideCount t ≤ b.inside.length := countP_le_length
  omega

/-- **The invitation counter** is the number of players who are queued on an invitation, on the way
or inside. -/
theorem Sound.invitedCount_toNat (t : Team) :
    (b.invitedCount t).toNat = b.queuedCount t + b.transitCount t + b.insideCount t := by
  rw [h.invitedCount t, UInt32.toNat_ofNat', Nat.mod_eq_of_lt (h.total_lt t)]

/-- **The player counter** is the number of players inside. -/
theorem Sound.playersCount_toNat (t : Team) : (b.playersCount t).toNat = b.insideCount t := by
  have hlt := h.total_lt t
  rw [h.playersCount t, UInt32.toNat_ofNat', Nat.mod_eq_of_lt (by omega)]

/-- Nobody is counted as invited exactly when nobody is in one of the lists. -/
theorem Sound.invitedCount_eq_zero_iff (t : Team) :
    b.invitedCount t = 0 ↔ b.queuedCount t + b.transitCount t + b.insideCount t = 0 := by
  rw [← UInt32.toNat_inj, h.invitedCount_toNat t]
  rfl

/-- When nobody is counted as invited, nobody is in one of the lists. -/
theorem Sound.eq_nil_of_invitedCount (hzero : ∀ t, b.invitedCount t = 0) :
    b.transit = [] ∧ b.inside = [] ∧ ∀ q ∈ b.queued, q.2.1 ≠ b.instanceID := by
  have hcounts := fun t => (h.invitedCount_eq_zero_iff t).mp (hzero t)
  refine ⟨eq_nil_iff_forall_not_mem.mpr fun g hg => ?_,
    eq_nil_iff_forall_not_mem.mpr fun e he => ?_, fun q hq hid => ?_⟩
  · have hpos : 0 < b.transitCount (b.ticket g).getBGTeam :=
      countP_pos_iff.mpr ⟨g, hg, by simp⟩
    have := hcounts (b.ticket g).getBGTeam
    omega
  · have hpos : 0 < b.insideCount e.2 := countP_pos_iff.mpr ⟨e, he, by simp⟩
    have := hcounts e.2
    omega
  · have hpos : 0 < b.queuedCount q.2.2 := countP_pos_iff.mpr ⟨q, hq, by simp [hid]⟩
    have := hcounts q.2.2
    omega

/-- An instance for which nobody is counted as invited may be deleted. -/
theorem Sound.delete (hzero : ∀ t, b.invitedCount t = 0) : Sound { b with deleted := true } :=
  ⟨h.instanceID, h.queued_nodup, h.queued, h.transit_nodup, h.transit, h.inside_nodup, h.inside,
    h.here, h.invitedCount, h.playersCount, fun _ => h.eq_nil_of_invitedCount hzero⟩

theorem Sound.playersCount_eq_zero_iff (t : Team) : b.playersCount t = 0 ↔ b.insideCount t = 0 := by
  rw [← UInt32.toNat_inj, h.playersCount_toNat t]
  rfl

end

/-! ### Changing what a player knows -/

/-- Change the record of one player. -/
def setTicket (b : Ledger) (guid : Guid) (p : Ticket) : Ledger :=
  { b with ticket := Function.update b.ticket guid p }

variable {p : Ticket}

theorem ticket_setTicket_self : (b.setTicket guid p).ticket guid = p :=
  update_self ..

theorem ticket_setTicket_of_ne {g : Guid} (hne : g ≠ guid) :
    (b.setTicket guid p).ticket g = b.ticket g :=
  update_of_ne hne ..

theorem setTicket_self : b.setTicket guid (b.ticket guid) = b := by
  rw [setTicket, update_eq_self]

theorem setTicket_setTicket {q : Ticket} :
    (b.setTicket guid p).setTicket guid q = b.setTicket guid q := by
  simp only [setTicket, update_idem]

/-- A record may be replaced by one that agrees with the list the player is in. -/
theorem Sound.setTicket (h : Sound b) (hqueued : guid ∈ b.queued.map Prod.fst → p.connected = true ∧
      p.queueSlot = (b.ticket guid).queueSlot ∧ p.bgInstanceID ≠ b.instanceID)
    (htransit : guid ∈ b.transit → p.connected = true ∧ p.queueSlot = some b.instanceID ∧
      p.bgInstanceID = b.instanceID ∧ p.getBGTeam = (b.ticket guid).getBGTeam)
    (hinside : guid ∈ b.inside.map Prod.fst → p.bgInstanceID = b.instanceID ∧
      p.getBGTeam = (b.ticket guid).getBGTeam ∧
      (p.connected = true → p.queueSlot = some b.instanceID))
    (hhere : p.connected = true → p.bgInstanceID = b.instanceID →
      guid ∈ b.transit ∨ guid ∈ b.inside.map Prod.fst) : Sound (b.setTicket guid p) := by
  have hteam : ∀ g ∈ b.transit,
      ((b.setTicket guid p).ticket g).getBGTeam = (b.ticket g).getBGTeam := by
    intro g hg
    by_cases hne : g = guid
    · subst hne
      rw [ticket_setTicket_self]
      exact (htransit hg).2.2.2
    · rw [ticket_setTicket_of_ne hne]
  refine ⟨h.instanceID, h.queued_nodup, fun q hq => ?_, h.transit_nodup, fun g hg => ?_,
    h.inside_nodup, fun e he => ?_, fun g hconn hid => ?_, ?_, h.playersCount, h.deleted⟩
  · by_cases hne : q.1 = guid
    · subst hne
      obtain ⟨hconn, hslot, hid⟩ := hqueued (mem_map_of_mem hq)
      rw [ticket_setTicket_self]
      exact ⟨hconn, hslot.trans (h.queued q hq).2.1, hid⟩
    · rw [ticket_setTicket_of_ne hne]
      exact h.queued q hq
  · by_cases hne : g = guid
    · subst hne
      obtain ⟨hconn, hslot, hid, -⟩ := htransit hg
      rw [ticket_setTicket_self]
      exact ⟨hconn, hslot, hid⟩
    · rw [ticket_setTicket_of_ne hne]
      exact h.transit g hg
  · obtain ⟨hnot, hrest⟩ := h.inside e he
    by_cases hne : e.1 = guid
    · subst hne
      obtain ⟨hid, hteam, hslot⟩ := hinside (mem_map_of_mem he)
      rw [ticket_setTicket_self]
      exact ⟨hnot, hid, hteam.trans hrest.2.1, hslot⟩
    · rw [ticket_setTicket_of_ne hne]
      exact ⟨hnot, hrest⟩
  · by_cases hne : g = guid
    · subst hne
      rw [ticket_setTicket_self] at hconn hid
      exact hhere hconn hid
    · rw [ticket_setTicket_of_ne hne] at hconn hid
      exact h.here g hconn hid
  · refine h.invitedCount.congr fun t => ?_
    have htransit : (b.setTicket guid p).transitCount t = b.transitCount t :=
      countP_congr fun g hg => by rw [hteam g hg]
    rw [htransit]
    rfl

/-! ### Out of the queue -/

/-- Take a player out of the queue. -/
def dropQueued (b : Ledger) (guid : Guid) : Ledger :=
  { b with queued := b.queued.filter fun q => !(q.1 = guid) }

/-- The invitation counters after the invitation of a player has been taken back. -/
def takenBack (b : Ledger) (guid : Guid) : Team → UInt32 :=
  match Keyed.find Prod.fst b.queued guid with
  | none => b.invitedCount
  | some q =>
    if q.2.1 = b.instanceID && !b.deleted then
      Function.update b.invitedCount q.2.2 (b.invitedCount q.2.2 - 1)
    else b.invitedCount

/-- Take a player out of the queue and its invitation back. -/
def unqueue (b : Ledger) (guid : Guid) : Ledger :=
  { b.dropQueued guid with invitedCount := b.takenBack guid }

variable {q : Guid × ℕ × Team}

theorem mem_dropQueued : q ∈ (b.dropQueued guid).queued ↔ q ∈ b.queued ∧ q.1 ≠ guid := by
  rw [dropQueued, mem_filter]
  simp

section

variable (h : Sound b)
include h

/-- Who is taken out of the queue is counted no more. -/
theorem Sound.queuedCount_dropQueued (hq : q ∈ b.queued) (t : Team) :
    b.queuedCount t = (b.dropQueued q.1).queuedCount t +
      if q.2.1 = b.instanceID ∧ q.2.2 = t then 1 else 0 := by
  rw [queuedCount, countP_filter_add h.queued_nodup hq]
  simp only [Bool.and_eq_true, decide_eq_true_eq]
  rfl

/-- The queue without one player is in order, whatever the counter says. -/
theorem Sound.dropQueued_counting {f : Team → UInt32}
    (hf : Counts f fun t => (b.dropQueued guid).queuedCount t + b.transitCount t + b.insideCount t) :
    Sound { b.dropQueued guid with invitedCount := f } where
  instanceID := h.instanceID
  queued_nodup := h.queued_nodup.sublist (filter_sublist.map _)
  queued q hq := h.queued q (mem_of_mem_filter hq)
  transit_nodup := h.transit_nodup
  transit := h.transit
  inside_nodup := h.inside_nodup
  inside := h.inside
  here := h.here
  invitedCount := hf
  playersCount := h.playersCount
  deleted hdeleted :=
    have ⟨htransit, hinside, hqueued⟩ := h.deleted hdeleted
    ⟨htransit, hinside, fun q hq => hqueued q (mem_of_mem_filter hq)⟩

/-- An invitation to this instance means that it is there. -/
theorem Sound.not_deleted (hq : q ∈ b.queued) (hid : q.2.1 = b.instanceID) : b.deleted = false := by
  rw [← Bool.not_eq_true]
  exact fun hdeleted => (h.deleted hdeleted).2.2 q hq hid

/-- Who is invited elsewhere can leave the queue without a change of the counter. -/
theorem Sound.dropQueued (hq : q ∈ b.queued) (hid : q.2.1 ≠ b.instanceID) :
    Sound (b.dropQueued q.1) := by
  refine h.dropQueued_counting (h.invitedCount.congr fun t => ?_)
  have hcount := h.queuedCount_dropQueued hq t
  rw [if_neg fun hboth => hid hboth.1] at hcount
  omega

/-- A player leaves the queue, and the invitation is taken back. -/
theorem Sound.unqueue (guid : Guid) : Sound (b.unqueue guid) := by
  refine h.dropQueued_counting ?_
  rw [takenBack]
  cases hfind : Keyed.find Prod.fst b.queued guid with
  | none =>
    have hsame : b.dropQueued guid = b := by
      rw [Ledger.dropQueued, filter_eq_self.mpr fun q hq => by
        simpa using find_eq_none_iff.mp hfind q hq]
    rw [hsame]
    exact h.invitedCount
  | some q =>
    have hq := mem_of_find hfind
    obtain rfl := key_of_find hfind
    dsimp only
    by_cases hid : q.2.1 = b.instanceID
    · rw [if_pos (by simp [hid, h.not_deleted hq hid])]
      refine h.invitedCount.pred fun t => ?_
      have hcount := h.queuedCount_dropQueued hq t
      simp only [hid, true_and] at hcount
      omega
    · rw [if_neg (by simp [hid])]
      exact (h.dropQueued hq hid).invitedCount

end

theorem notMem_dropQueued : guid ∉ (b.dropQueued guid).queued.map Prod.fst := by
  intro hmem
  obtain ⟨q, hq, hkey⟩ := mem_map.mp hmem
  exact (mem_dropQueued.mp hq).2 hkey

theorem Sound.notMem_of_queued (h : Sound b) (hq : q ∈ b.queued) :
    q.1 ∉ b.transit ∧ q.1 ∉ b.inside.map Prod.fst := by
  have hbg := (h.queued q hq).2.2
  refine ⟨fun ht => hbg (h.transit _ ht).2.2, fun hi => ?_⟩
  obtain ⟨e, he, hkey⟩ := mem_map.mp hi
  exact hbg (hkey ▸ (h.inside e he).2.1)

/-- A player who is in none of the lists may know anything but that it is in the instance. -/
theorem Sound.setTicket_of_notMem (h : Sound b) (hqueued : guid ∉ b.queued.map Prod.fst)
    (htransit : guid ∉ b.transit) (hinside : guid ∉ b.inside.map Prod.fst)
    (hp : p.connected = true → p.bgInstanceID ≠ b.instanceID) : Sound (b.setTicket guid p) :=
  h.setTicket (fun hq => absurd hq hqueued) (fun ht => absurd ht htransit)
    (fun hi => absurd hi hinside) fun hconn hid => absurd hid (hp hconn)

/-- A queued player gives up its place and its slot. -/
theorem Sound.withdraw (h : Sound b) (hq : q ∈ b.queued) :
    Sound ((b.unqueue q.1).setTicket q.1 { b.ticket q.1 with queueSlot := none }) := by
  obtain ⟨htransit, hinside⟩ := h.notMem_of_queued hq
  exact (h.unqueue q.1).setTicket_of_notMem notMem_dropQueued htransit hinside
    fun _ => (h.queued q hq).2.2

/-- The rest of a group that is not invited gives up, one player at a time. -/
def giveUp (b : Ledger) (guid : Guid) : Ledger :=
  (if (b.ticket guid).connected then b.setTicket guid { b.ticket guid with queueSlot := none }
  else b).dropQueued guid

theorem Sound.giveUp (h : Sound b) (hq : q ∈ b.queued) (hid : q.2.1 ≠ b.instanceID) :
    Sound (b.giveUp q.1) := by
  obtain ⟨htransit, hinside⟩ := h.notMem_of_queued hq
  rw [Ledger.giveUp, if_pos (h.queued q hq).1]
  exact (h.dropQueued hq hid).setTicket_of_notMem notMem_dropQueued htransit hinside
    fun _ => (h.queued q hq).2.2

variable {guids : List Guid}

theorem Sound.foldl_giveUp (h : Sound b) (hnodup : guids.Nodup) (side : Team)
    (hguids : ∀ g ∈ guids, (g, 0, side) ∈ b.queued) : Sound (guids.foldl Ledger.giveUp b) := by
  induction guids generalizing b with
  | nil => exact h
  | cons g guids ih =>
    obtain ⟨hg, hnodup⟩ := nodup_cons.mp hnodup
    have hmem := hguids g mem_cons_self
    refine ih (h.giveUp hmem (Ne.symm h.instanceID)) hnodup fun g' hg' => ?_
    rw [Ledger.giveUp, if_pos (h.queued _ hmem).1]
    exact mem_dropQueued.mpr ⟨hguids g' (mem_cons_of_mem _ hg'), fun hne => hg (hne ▸ hg')⟩

/-- Giving up takes players out of the queue and touches no other list. -/
theorem foldl_giveUp_lists (guids : List Guid) :
    (guids.foldl Ledger.giveUp b).transit = b.transit ∧
      ∀ q ∈ (guids.foldl Ledger.giveUp b).queued, q ∈ b.queued := by
  induction guids generalizing b with
  | nil => exact ⟨rfl, fun _ => id⟩
  | cons g guids ih =>
    obtain ⟨htransit, hqueued⟩ := @ih (b.giveUp g)
    have hone : (b.giveUp g).transit = b.transit ∧ ∀ q ∈ (b.giveUp g).queued, q ∈ b.queued := by
      rw [Ledger.giveUp]
      split_ifs <;> exact ⟨rfl, fun q hq => (mem_dropQueued.mp hq).1⟩
    exact ⟨htransit.trans hone.1, fun q hq => hone.2 q (hqueued q hq)⟩

/-! ### Onto the way, and in -/

/-- A queued player accepts an invitation: it leaves the queue, its record names the instance, and
it is on the way if that is this one. -/
def accept (b : Ledger) (guid : Guid) (instanceID : ℕ) (side : Team) : Ledger :=
  let p := b.ticket guid
  let left := (b.dropQueued guid).setTicket guid
    { p with bgInstanceID := instanceID, bgTeam := some side }
  if instanceID = b.instanceID && !b.deleted then { left with transit := guid :: left.transit }
  else left

/-- A player on the way arrives. -/
def arrive (b : Ledger) (guid : Guid) : Ledger :=
  let side := (b.ticket guid).getBGTeam
  { b with
    transit := b.transit.filter fun g => !(g = guid)
    inside := b.inside ++ [(guid, side)]
    playersCount := Function.update b.playersCount side (b.playersCount side + 1) }

theorem countP_filter_ne (hnodup : l.Nodup) (hguid : guid ∈ l) (p : Guid → Bool) :
    l.countP p = (l.filter fun g => !(g = guid)).countP p + if p guid then 1 else 0 :=
  (@countP_filter_add _ _ id) (by rwa [map_id]) hguid p

theorem Sound.transitCount_arrive (h : Sound b) (hguid : guid ∈ b.transit) (t : Team) :
    b.transitCount t =
      (b.arrive guid).transitCount t + if (b.ticket guid).getBGTeam = t then 1 else 0 := by
  rw [transitCount, countP_filter_ne h.transit_nodup hguid]
  simp only [decide_eq_true_eq]
  rfl

theorem insideCount_arrive (t : Team) : (b.arrive guid).insideCount t =
    b.insideCount t + if (b.ticket guid).getBGTeam = t then 1 else 0 := by
  rw [insideCount, Ledger.arrive, countP_append, countP_singleton, insideCount]
  simp only [decide_eq_true_eq]

theorem mem_transit_arrive {g : Guid} : g ∈ (b.arrive guid).transit ↔ g ∈ b.transit ∧ g ≠ guid := by
  rw [Ledger.arrive, mem_filter]
  simp

/-- Who arrives moves from the way to the inside, and is counted as before. -/
theorem Sound.arrive (h : Sound b) (hguid : guid ∈ b.transit) : Sound (b.arrive guid) := by
  obtain ⟨hconn, hslot, hid⟩ := h.transit guid hguid
  have hnew : guid ∉ b.inside.map Prod.fst := by
    intro hmem
    obtain ⟨e, he, rfl⟩ := mem_map.mp hmem
    exact (h.inside e he).1 hguid
  refine ⟨h.instanceID, h.queued_nodup, h.queued, h.transit_nodup.filter _,
    fun g hg => h.transit g (mem_transit_arrive.mp hg).1, ?_, fun e he => ?_, fun g hg hgid => ?_, ?_,
    h.playersCount.add 1 insideCount_arrive, fun hdeleted => ?_⟩
  · rw [Ledger.arrive, map_append]
    refine List.Nodup.append h.inside_nodup (nodup_singleton _) fun g hg hg' => ?_
    obtain rfl := mem_singleton.mp hg'
    exact hnew hg
  · rcases mem_append.mp he with he | he
    · obtain ⟨hnot, hrest⟩ := h.inside e he
      exact ⟨fun hg => hnot (mem_transit_arrive.mp hg).1, hrest⟩
    · obtain rfl := mem_singleton.mp he
      exact ⟨fun hg => (mem_transit_arrive.mp hg).2 rfl, hid, rfl, fun _ => hslot⟩
  · rw [mem_transit_arrive, Ledger.arrive, map_append, mem_append]
    by_cases hne : g = guid
    · exact Or.inr (Or.inr (by simp [hne]))
    · exact (h.here g hg hgid).imp (fun hg => ⟨hg, hne⟩) Or.inl
  · refine h.invitedCount.congr fun t => ?_
    have htransit := h.transitCount_arrive hguid t
    have hinside := (@insideCount_arrive b guid) t
    have hqueued : (b.arrive guid).queuedCount t = b.queuedCount t := rfl
    omega
  · obtain ⟨hempty, -⟩ := h.deleted hdeleted
    rw [hempty] at hguid
    cases hguid

variable {instanceID : ℕ}

/-- Who accepts moves from the queue to the way, or to another instance. -/
theorem Sound.accept (h : Sound b) {side : Team} (hguid : (guid, instanceID, side) ∈ b.queued) :
    Sound (b.accept guid instanceID side) := by
  obtain ⟨hconn, hslot, hbg⟩ := h.queued _ hguid
  obtain ⟨htransit, hinside⟩ := h.notMem_of_queued hguid
  rw [Ledger.accept]
  by_cases hid : instanceID = b.instanceID
  · subst hid
    rw [if_pos (by simp [h.not_deleted hguid rfl])]
    have hother : ∀ g ∈ b.transit, g ≠ guid := fun g hg hne => htransit (hne ▸ hg)
    refine ⟨h.instanceID, h.queued_nodup.sublist (filter_sublist.map _), fun q hq => ?_,
      nodup_cons.mpr ⟨htransit, h.transit_nodup⟩, fun g hg => ?_, h.inside_nodup,
      fun e he => ?_, fun g hg hgid => ?_, ?_, h.playersCount, fun hdeleted => ?_⟩
    · obtain ⟨hq, hne⟩ := mem_dropQueued.mp hq
      simp only [ticket_setTicket_of_ne hne]
      exact h.queued q hq
    · rcases mem_cons.mp hg with rfl | hg
      · simp only [ticket_setTicket_self]
        exact ⟨hconn, hslot, rfl⟩
      · simp only [ticket_setTicket_of_ne (hother g hg)]
        exact h.transit g hg
    · have hne : e.1 ≠ guid := fun hne => hinside (hne ▸ mem_map_of_mem he)
      obtain ⟨hnot, hrest⟩ := h.inside e he
      simp only [ticket_setTicket_of_ne hne]
      exact ⟨fun hg => (mem_cons.mp hg).elim hne hnot, hrest⟩
    · by_cases hne : g = guid
      · exact Or.inl (hne ▸ mem_cons_self)
      · simp only [ticket_setTicket_of_ne hne] at hg hgid
        exact (h.here g hg hgid).imp (mem_cons_of_mem _) id
    · refine h.invitedCount.congr fun t => ?_
      have hcount := h.queuedCount_dropQueued hguid t
      have hway : (guid :: b.transit).countP (fun g =>
          (((b.dropQueued guid).setTicket guid
            { b.ticket guid with bgInstanceID := b.instanceID, bgTeam := some side }).ticket g).getBGTeam
              = t) = b.transitCount t + if side = t then 1 else 0 := by
        rw [countP_cons, ticket_setTicket_self, transitCount,
          countP_congr fun g hg => by rw [ticket_setTicket_of_ne (hother g hg)]]
        simp only [decide_eq_true_eq]
        rfl
      simp only [true_and] at hcount
      exact (congrArg₂ (· + ·) (congrArg₂ (· + ·) rfl hway) rfl).trans (by
        change (b.dropQueued guid).queuedCount t + (b.transitCount t + _) + b.insideCount t = _
        omega)
    · exact Bool.noConfusion ((h.not_deleted hguid rfl).symm.trans hdeleted)
  · rw [if_neg (by simp [hid])]
    exact (h.dropQueued hguid hid).setTicket_of_notMem notMem_dropQueued htransit hinside fun _ => hid

/-! ### Leaving -/

/-- Take a player who is inside out, and off both counters. -/
def dropInside (b : Ledger) (e : Guid × Team) : Ledger :=
  { b with
    inside := b.inside.filter fun e' => !(e'.1 = e.1)
    playersCount := Function.update b.playersCount e.2 (b.playersCount e.2 - 1)
    invitedCount := Function.update b.invitedCount e.2 (b.invitedCount e.2 - 1) }

/-- A player leaves, whether it is inside or not; of a player who cannot be found, being offline or
on the way, the record stays as it is. -/
def leave (b : Ledger) (guid : Guid) : Ledger :=
  let p := b.ticket guid
  let found := p.connected && !(guid ∈ b.transit : Bool)
  match Keyed.find Prod.fst b.inside guid with
  | none => if found then b.setTicket guid { p with bgInstanceID := 0, bgTeam := none } else b
  | some e =>
    if found then (b.dropInside e).setTicket guid
      { p with queueSlot := none, bgInstanceID := 0, bgTeam := none }
    else b.dropInside e

variable {e : Guid × Team}

theorem mem_dropInside {e' : Guid × Team} :
    e' ∈ (b.dropInside e).inside ↔ e' ∈ b.inside ∧ e'.1 ≠ e.1 := by
  rw [dropInside, mem_filter]
  simp

/-- Who leaves is counted no more. -/
theorem Sound.insideCount_dropInside (h : Sound b) (he : e ∈ b.inside) (t : Team) :
    b.insideCount t = (b.dropInside e).insideCount t + if e.2 = t then 1 else 0 := by
  rw [insideCount, countP_filter_add h.inside_nodup he]
  simp only [decide_eq_true_eq]
  rfl

/-- A player who is inside leaves; its record must not name the instance any more, unless it is
offline. -/
theorem Sound.dropInside (h : Sound b) (he : e ∈ b.inside)
    (hp : p.connected = true → p.bgInstanceID ≠ b.instanceID) :
    Sound ((b.dropInside e).setTicket e.1 p) := by
  obtain ⟨htransit, hid, -, -⟩ := h.inside e he
  have hqueued := h.notMem_queued hid
  have hway : ∀ g ∈ b.transit, g ≠ e.1 := fun g hg hne => htransit (hne ▸ hg)
  refine ⟨h.instanceID, h.queued_nodup, fun q hq => ?_, h.transit_nodup, fun g hg => ?_,
    h.inside_nodup.sublist (filter_sublist.map _), fun e' he' => ?_, fun g hg hgid => ?_,
    h.invitedCount.pred fun t => ?_,
    h.playersCount.pred (h.insideCount_dropInside he), fun hdeleted => ?_⟩
  · have hne : q.1 ≠ e.1 := fun hne => hqueued (hne ▸ mem_map_of_mem hq)
    rw [ticket_setTicket_of_ne hne]
    exact h.queued q hq
  · rw [ticket_setTicket_of_ne (hway g hg)]
    exact h.transit g hg
  · obtain ⟨he', hne⟩ := mem_dropInside.mp he'
    rw [ticket_setTicket_of_ne hne]
    exact h.inside e' he'
  · by_cases hne : g = e.1
    · subst hne
      rw [ticket_setTicket_self] at hg hgid
      exact absurd hgid (hp hg)
    · rw [ticket_setTicket_of_ne hne] at hg hgid
      refine (h.here g hg hgid).imp id fun hmem => ?_
      obtain ⟨e', he', rfl⟩ := mem_map.mp hmem
      exact mem_map_of_mem (mem_dropInside.mpr ⟨he', hne⟩)
  · have hcount := h.insideCount_dropInside he t
    have htransit : ((b.dropInside e).setTicket e.1 p).transitCount t = b.transitCount t :=
      countP_congr fun g hg => by rw [ticket_setTicket_of_ne (hway g hg)]; rfl
    have hqueued : ((b.dropInside e).setTicket e.1 p).queuedCount t = b.queuedCount t := rfl
    have hinside : ((b.dropInside e).setTicket e.1 p).insideCount t =
      (b.dropInside e).insideCount t := rfl
    omega
  · rw [(h.deleted hdeleted).2.1] at he
    cases he

/-- Leaving touches neither the queue nor the way. -/
theorem leave_lists : (b.leave guid).queued = b.queued ∧ (b.leave guid).transit = b.transit ∧
    (b.leave guid).instanceID = b.instanceID ∧ guid ∉ (b.leave guid).inside.map Prod.fst := by
  rw [leave]
  cases hfind : Keyed.find Prod.fst b.inside guid with
  | none =>
    have hnot : guid ∉ b.inside.map Prod.fst := fun hmem => by
      obtain ⟨e, he, hkey⟩ := mem_map.mp hmem
      exact find_eq_none_iff.mp hfind e he hkey
    split_ifs <;> exact ⟨rfl, rfl, rfl, hnot⟩
  | some e =>
    obtain rfl := key_of_find hfind
    have hnot : e.1 ∉ (b.dropInside e).inside.map Prod.fst := fun hmem => by
      obtain ⟨e', he', hkey⟩ := mem_map.mp hmem
      exact (mem_dropInside.mp he').2 hkey
    split_ifs <;> exact ⟨rfl, rfl, rfl, hnot⟩

/-- **Leaving** keeps the ledger sound. -/
theorem Sound.leave (h : Sound b) (guid : Guid) : Sound (b.leave guid) := by
  rw [Ledger.leave]
  cases hfind : Keyed.find Prod.fst b.inside guid with
  | none =>
    split_ifs with hfound
    · obtain ⟨hconn, htransit⟩ := (Bool.and_eq_true _ _).mp hfound
      have hinside : guid ∉ b.inside.map Prod.fst := fun hmem => by
        obtain ⟨e, he, hkey⟩ := mem_map.mp hmem
        exact find_eq_none_iff.mp hfind e he hkey
      exact h.setTicket (fun _ => ⟨hconn, rfl, Ne.symm h.instanceID⟩)
        (fun ht => absurd ht (by simpa using htransit)) (fun hi => absurd hi hinside)
        fun _ hid => absurd hid.symm h.instanceID
    · exact h
  | some e =>
    have he := mem_of_find hfind
    obtain rfl := key_of_find hfind
    dsimp only
    split_ifs with hfound
    · exact h.dropInside he fun _ => Ne.symm h.instanceID
    · have hoffline : (b.ticket e.1).connected = true → False := fun hconn =>
        hfound (by simp [hconn, (h.inside e he).1])
      have hself : (b.dropInside e).setTicket e.1 (b.ticket e.1) = b.dropInside e := setTicket_self
      exact hself ▸ h.dropInside he fun hconn => (hoffline hconn).elim

/-! ### Joining the queue and being invited -/

/-- Players join the queue on a side. -/
def join (b : Ledger) (guids : List Guid) (side : Team) : Ledger :=
  { b with
    queued := b.queued ++ guids.map fun g => (g, 0, side)
    ticket := fun g => if g ∈ guids then { b.ticket g with queueSlot := some 0 } else b.ticket g }

/-- Queued players are invited to an instance, on a side. -/
def invite (b : Ledger) (guids : List Guid) (side : Team) (instanceID : ℕ) : Ledger :=
  { b with
    queued := b.queued.map fun q => if q.1 ∈ guids then (q.1, instanceID, side) else q
    invitedCount :=
      if instanceID = b.instanceID && !b.deleted then
        Function.update b.invitedCount side (b.invitedCount side + UInt32.ofNat guids.length)
      else b.invitedCount
    ticket := fun g =>
      if g ∈ guids then { b.ticket g with queueSlot := some instanceID } else b.ticket g }

/-- Connected players without a slot of this queue are in none of the lists, and may join. -/
theorem Sound.join (h : Sound b) {guids : List Guid} (side : Team) (hnodup : guids.Nodup)
    (hfree : ∀ g ∈ guids, (b.ticket g).connected = true ∧ (b.ticket g).queueSlot = none) :
    Sound (b.join guids side) := by
  have hqueued : ∀ q ∈ b.queued, q.1 ∉ guids := fun q hq hg =>
    nomatch (h.queued q hq).2.1.symm.trans (hfree _ hg).2
  have htransit : ∀ g ∈ b.transit, g ∉ guids := fun g hg hg' =>
    nomatch (h.transit g hg).2.1.symm.trans (hfree g hg').2
  have hinside : ∀ e ∈ b.inside, e.1 ∉ guids := fun e he hg =>
    nomatch ((h.inside e he).2.2.2 (hfree _ hg).1).symm.trans (hfree _ hg).2
  have hbg : ∀ g ∈ guids, (b.ticket g).bgInstanceID ≠ b.instanceID := by
    intro g hg hid
    rcases h.here g (hfree g hg).1 hid with ht | hi
    · exact htransit g ht hg
    · obtain ⟨e, he, rfl⟩ := mem_map.mp hi
      exact hinside e he hg
  have hold : ∀ g, g ∉ guids → (b.join guids side).ticket g = b.ticket g := fun g hg => if_neg hg
  have hnew : ∀ g ∈ guids, (b.join guids side).ticket g = { b.ticket g with queueSlot := some 0 } :=
    fun g hg => if_pos hg
  refine ⟨h.instanceID, ?_, fun q hq => ?_, h.transit_nodup, fun g hg => ?_, h.inside_nodup,
    fun e he => ?_, fun g hg hgid => ?_, ?_, h.playersCount, fun hdeleted => ?_⟩
  · rw [Ledger.join, map_append, map_map]
    refine List.Nodup.append h.queued_nodup (hnodup.map fun _ _ => id) fun g hg hg' => ?_
    obtain ⟨q, hq, rfl⟩ := mem_map.mp hg
    exact hqueued q hq (by simpa using hg')
  · rcases mem_append.mp hq with hq | hq
    · rw [hold _ (hqueued q hq)]
      exact h.queued q hq
    · obtain ⟨g, hg, rfl⟩ := mem_map.mp hq
      rw [hnew g hg]
      exact ⟨(hfree g hg).1, rfl, hbg g hg⟩
  · rw [hold g (htransit g hg)]
    exact h.transit g hg
  · rw [hold _ (hinside e he)]
    exact h.inside e he
  · by_cases hmem : g ∈ guids
    · rw [hnew g hmem] at hgid
      exact absurd hgid (hbg g hmem)
    · rw [hold g hmem] at hg hgid
      exact h.here g hg hgid
  · refine h.invitedCount.congr fun t => ?_
    have hcount : (b.join guids side).queuedCount t = b.queuedCount t := by
      rw [queuedCount, Ledger.join, countP_append, countP_map]
      have hzero : guids.countP ((fun q => q.2.1 = b.instanceID && q.2.2 = t) ∘
          fun g => (g, 0, side)) = 0 :=
        countP_eq_zero.mpr fun g _ => by simp [Ne.symm h.instanceID]
      rw [hzero]
      rfl
    have hway : (b.join guids side).transitCount t = b.transitCount t :=
      countP_congr fun g hg => by rw [hold g (htransit g hg)]
    rw [hcount, hway]
    rfl
  · obtain ⟨ht, hi, hq⟩ := h.deleted hdeleted
    refine ⟨ht, hi, fun q hmem => ?_⟩
    rcases mem_append.mp hmem with hmem | hmem
    · exact hq q hmem
    · obtain ⟨g, -, rfl⟩ := mem_map.mp hmem
      exact Ne.symm h.instanceID

variable {team : Team}

section

variable (h : Sound b) {side : Team} (hnodup : guids.Nodup)
  (hguids : ∀ g ∈ guids, (g, 0, team) ∈ b.queued)
include h hnodup hguids

/-- Everyone who is invited is counted. -/
theorem Sound.queuedCount_invite (t : Team) :
    (b.invite guids side instanceID).queuedCount t =
      b.queuedCount t + if instanceID = b.instanceID ∧ side = t then guids.length else 0 := by
  have hunique : ∀ q ∈ b.queued, q.1 ∈ guids → q.2.1 ≠ b.instanceID := fun q hq hg => by
    rw [eq_of_key h.queued_nodup hq (hguids _ hg) rfl]
    exact Ne.symm h.instanceID
  have hinvited : b.queued.countP (fun q => decide (q.1 ∈ guids)) = guids.length := by
    have hmem := Tally.countP_mem hnodup h.queued_nodup
      (fun g hg => mem_map_of_mem (hguids g hg)) fun _ => true
    simpa [Function.comp_def] using hmem
  have hmap : (b.invite guids side instanceID).queuedCount t = b.queued.countP (fun q =>
      (if q.1 ∈ guids then (q.1, instanceID, side) else q).2.1 = b.instanceID &&
        (if q.1 ∈ guids then (q.1, instanceID, side) else q).2.2 = t) := countP_map
  rw [hmap, queuedCount]
  by_cases hcounted : instanceID = b.instanceID ∧ side = t
  · rw [if_pos hcounted, ← hinvited, Nat.add_comm]
    refine Tally.countP_split fun q hq => ?_
    by_cases hg : q.1 ∈ guids
    · simp [hg, hcounted, hunique q hq hg]
    · simp [hg]
  · rw [if_neg hcounted, Nat.add_zero]
    refine countP_congr fun q hq => ?_
    by_cases hg : q.1 ∈ guids
    · simp only [hg, hunique q hq hg, decide_false, Bool.false_and, Bool.false_eq_true,
        iff_false, Bool.and_eq_true, decide_eq_true_eq]
      exact hcounted
    · simp [hg]

/-- **An invitation** counts every player of the group once. -/
theorem Sound.invite (hlive : instanceID = b.instanceID → b.deleted = false) :
    Sound (b.invite guids side instanceID) := by
  have htransit : ∀ g ∈ b.transit, g ∉ guids := fun g hg hg' =>
    (h.queued _ (hguids g hg')).2.2 (h.transit g hg).2.2
  have hinside : ∀ e ∈ b.inside, e.1 ∉ guids := fun e he hg =>
    (h.queued _ (hguids _ hg)).2.2 (h.inside e he).2.1
  have hold : ∀ g, g ∉ guids → (b.invite guids side instanceID).ticket g = b.ticket g :=
    fun g hg => if_neg hg
  have hnew : ∀ g ∈ guids, (b.invite guids side instanceID).ticket g =
      { b.ticket g with queueSlot := some instanceID } := fun g hg => if_pos hg
  have hkeys : (b.invite guids side instanceID).queued.map Prod.fst = b.queued.map Prod.fst := by
    rw [Ledger.invite, map_map]
    exact map_congr_left fun q _ => by rw [Function.comp_apply]; split_ifs <;> rfl
  have hway : ∀ t, (b.invite guids side instanceID).transitCount t = b.transitCount t := fun t =>
    countP_congr fun g hg => by rw [hold g (htransit g hg)]
  refine ⟨h.instanceID, hkeys ▸ h.queued_nodup, fun q' hq' => ?_, h.transit_nodup, fun g hg => ?_,
    h.inside_nodup, fun e he => ?_, fun g hg hgid => ?_, ?_, h.playersCount, fun hdeleted => ?_⟩
  · obtain ⟨q, hq, rfl⟩ := mem_map.mp hq'
    obtain ⟨hconn, hslot, hbg⟩ := h.queued q hq
    split_ifs with hg
    · rw [hnew _ hg]
      exact ⟨hconn, rfl, hbg⟩
    · rw [hold _ hg]
      exact ⟨hconn, hslot, hbg⟩
  · rw [hold g (htransit g hg)]
    exact h.transit g hg
  · rw [hold _ (hinside e he)]
    exact h.inside e he
  · by_cases hmem : g ∈ guids
    · rw [hnew g hmem] at hg hgid
      exact h.here g hg hgid
    · rw [hold g hmem] at hg hgid
      exact h.here g hg hgid
  · have htotal : ∀ t, (b.invite guids side instanceID).queuedCount t +
        (b.invite guids side instanceID).transitCount t + b.insideCount t =
        b.queuedCount t + b.transitCount t + b.insideCount t +
          if instanceID = b.instanceID ∧ side = t then guids.length else 0 := fun t => by
      rw [h.queuedCount_invite hnodup hguids t, hway t]
      omega
    by_cases hid : instanceID = b.instanceID
    · rw [Ledger.invite, if_pos (by simp [hid, hlive hid])]
      refine h.invitedCount.add guids.length fun t => (htotal t).trans ?_
      simp only [hid, true_and]
    · rw [Ledger.invite, if_neg (by simp [hid])]
      refine h.invitedCount.congr fun t => (htotal t).trans ?_
      rw [if_neg fun hboth => hid hboth.1, Nat.add_zero]
  · obtain ⟨ht, hi, hq⟩ := h.deleted hdeleted
    refine ⟨ht, hi, fun q' hq' => ?_⟩
    obtain ⟨q, hmem, rfl⟩ := mem_map.mp hq'
    split_ifs with hg
    · exact fun hid => Bool.noConfusion ((hlive hid).symm.trans hdeleted)
    · exact hq q hmem

end

end Ledger

end IscServer.Battlegrounds
