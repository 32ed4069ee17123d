import IscServer.Library.Tally
import IscServer.Mails.MailHandler

/-!
# Goods in Inventories and Mails

What the characters hold in their inventories and in the attachments of undeleted mails, weighed by any
weight of items: the count of an entry, or how often a guid is there.

## Main results

* `boxWeight_post`, `boxWeight_remove`, `boxWeight_take` — what posting a mail, removing one and taking
  an item out of one do to a mailbox.
* `weigh_collected` — the items of a draft leave the inventory.
* `guids_storeItem`, `amount_storeItem` — an item is stored.
-/

namespace IscServer.Mails

open List Keyed

open IscServer.Player

variable {w : World} {characters : Finset ℕ} {f : Item → ℕ} {items : List Item}

/-! ### Weights -/

/-- The items, weighed. -/
def weigh (f : Item → ℕ) (items : List Item) : ℕ := (items.map f).sum

theorem weigh_append (items' : List Item) : weigh f
    (items ++ items') = weigh f items + weigh f items' := by
  rw [weigh, map_append, sum_append]
  rfl

theorem weigh_perm {items' : List Item} (h : items.Perm items') : weigh f items = weigh f items' :=
  (h.map f).sum_eq

/-- The count of an item, if it is of the entry. -/
def amount (entry : ℕ) (item : Item) : ℕ := if item.entry = entry then item.count else 0

/-- Whether an item is the one with the guid. -/
def place (guid : ℕ) (item : Item) : ℕ := if item.guid = guid then 1 else 0

theorem weigh_place (guid : ℕ) : weigh (place guid) items = (items.map Item.guid).count guid := by
  induction items with
  | nil => rfl
  | cons item items ih =>
    rw [weigh, map_cons, sum_cons, map_cons, count_cons, ← ih, Nat.add_comm]
    refine congrArg (weigh (place guid) items + ·) ?_
    by_cases h : item.guid = guid
    · rw [place, if_pos h, if_pos (beq_iff_eq.mpr h)]
    · rw [place, if_neg h, if_neg (fun hbeq => h (beq_iff_eq.mp hbeq))]

theorem place_pos_of_mem {item : Item} (h : item ∈ items) : 0 < weigh (place item.guid) items := by
  rw [weigh_place]
  exact count_pos_iff.mpr (mem_map_of_mem h)

theorem nodup_of_place (h : ∀ guid, weigh (place guid) items ≤ 1) : (items.map Item.guid).Nodup :=
  nodup_iff_count_le_one.mpr fun guid => by
    rw [← weigh_place]
    exact h guid

/-! ### A mailbox -/

/-- The attachments of a mail. -/
def attached (mItems : List Item) (m : Mail) : List Item :=
  m.items.filterMap (Keyed.find Item.guid mItems)

/-- What the undeleted mails of a mailbox weigh. -/
def boxWeight (f : Item → ℕ) (box : List Mail × List Item) : ℕ :=
  (box.1.map fun m => if m.deleted then 0 else weigh f (attached box.2 m)).sum

/-- The attachments of undeleted mails are there. -/
def Found (box : List Mail × List Item) : Prop :=
  ∀ m ∈ box.1, m.deleted = false → ∀ guid ∈ m.items, Keyed.find Item.guid box.2 guid ≠ none

variable {mails : List Mail} {mItems : List Item} {m : Mail} {guid : ℕ}

/-- The attachments depend on the named items only. -/
theorem attached_congr {mItems' : List Item}
    (h : ∀ guid ∈ m.items, Keyed.find Item.guid mItems' guid = Keyed.find Item.guid mItems guid) :
    attached mItems' m = attached mItems m :=
  filterMap_congr h

/-- The guids of attachments that are there. -/
theorem guids_attached (h : ∀ guid ∈ m.items, Keyed.find Item.guid mItems guid ≠ none) :
    (attached mItems m).map Item.guid = m.items := by
  rw [attached, map_filterMap]
  refine (filterMap_congr (g := some) fun guid hguid => ?_).trans filterMap_some
  obtain ⟨item, hitem⟩ := Option.ne_none_iff_exists'.mp (h guid hguid)
  rw [hitem, Option.map_some, key_of_find hitem]

theorem boxWeight_cons (mail : Mail) : boxWeight f (mail :: mails, mItems) =
    (if mail.deleted then 0 else weigh f (attached mItems mail)) + boxWeight f (mails, mItems) := by
  rfl

/-- A mailbox in which the named items are found as before. -/
theorem boxWeight_congr {mItems' : List Item}
    (h : ∀ m ∈ mails, m.deleted = false → ∀ guid ∈ m.items,
      Keyed.find Item.guid mItems' guid = Keyed.find Item.guid mItems guid) :
    boxWeight f (mails, mItems') = boxWeight f (mails, mItems) := by
  refine congrArg List.sum (map_congr_left fun m hm => ?_)
  by_cases hdeleted : m.deleted = true
  · rw [if_pos hdeleted, if_pos hdeleted]
  · rw [if_neg hdeleted, if_neg hdeleted, attached_congr (h m hm (by simpa using hdeleted))]

/-- One mail and the others. -/
theorem boxWeight_remove (hids : (mails.map Mail.messageID).Nodup) (hm : m ∈ mails)
    (hdeleted : m.deleted = false) :
    boxWeight f (mails, mItems) = weigh f (attached mItems m) +
      boxWeight f (mails.filter fun mail => !(mail.messageID = m.messageID), mItems) := by
  have hperm := perm_cons_filter hids hm
  rw [boxWeight, (hperm.map _).sum_eq, map_cons, sum_cons, if_neg (by simp [hdeleted])]
  rfl

section

variable (hfound : Found (mails, mItems))
include hfound

/-- An item that a mail names is there. -/
theorem place_pos_of_named (hm : m ∈ mails)
    (hdeleted : m.deleted = false) (hguid : guid ∈ m.items) :
    0 < weigh (place guid) (attached mItems m) := by
  rw [weigh_place, guids_attached (hfound m hm hdeleted)]
  exact count_pos_iff.mpr hguid

theorem boxWeight_pos_of_named (hm : m ∈ mails)
    (hdeleted : m.deleted = false) (hguid : guid ∈ m.items) :
    0 < boxWeight (place guid) (mails, mItems) := by
  have hpos := place_pos_of_named hfound hm hdeleted hguid
  have hle : weigh (place guid) (attached mItems m) ≤ boxWeight (place guid) (mails, mItems) := by
    refine single_le_sum (fun _ _ => Nat.zero_le _) _ ?_
    exact mem_map.mpr ⟨m, hm, if_neg (by simp [hdeleted])⟩
  omega

section

variable (hids : (mails.map Mail.messageID).Nodup)
  (hunique : ∀ guid, boxWeight (place guid) (mails, mItems) ≤ 1)
include hids hunique

/-- What one mail names no other mail names. -/
theorem notMem_of_unique {other : Mail} (hm : m ∈ mails)
    (hother : other ∈ mails) (hne : other.messageID ≠ m.messageID) (hdeleted : m.deleted = false)
    (hlive : other.deleted = false) (hguid : guid ∈ m.items) : guid ∉ other.items := by
  intro hnamed
  have hsplit := (@boxWeight_remove (place guid) _ mItems) hids hm hdeleted
  have hfirst := place_pos_of_named hfound hm hdeleted hguid
  have hsecond := (@boxWeight_pos_of_named (mails.filter fun mail => !(mail.messageID = m.messageID)) mItems)
    (fun mail hmail => hfound mail (mem_filter.mp hmail).1)
    (mem_filter.mpr ⟨hother, by simp [hne]⟩) hlive hnamed
  have hle := hunique guid
  omega

/-- A mail names an item once. -/
theorem nodup_items_of_unique (hm : m ∈ mails) (hdeleted : m.deleted = false) : m.items.Nodup := by
  rw [← guids_attached (hfound m hm hdeleted)]
  refine nodup_of_place fun guid => ?_
  have hsplit := (@boxWeight_remove (place guid) _ mItems) hids hm hdeleted
  have hle := hunique guid
  dsimp only
  omega

end

end

/-! ### Posting a mail -/

/-- **A mail is posted** with items that no other mail names. -/
theorem boxWeight_post (hitems : (items.map Item.guid).Nodup) (hlive : m.deleted = false)
    (hnames : m.items = items.map Item.guid)
    (hnew : ∀ mail ∈ mails, mail.deleted = false → ∀ guid ∈ mail.items, guid ∉ items.map Item.guid) :
    boxWeight f (m :: mails, addMItems mItems items) =
      weigh f items + boxWeight f (mails, mItems) := by
  have hattached : attached (addMItems mItems items) m = items := by
    rw [attached, hnames, filterMap_map]
    refine (filterMap_congr (g := some) fun item hitem => ?_).trans filterMap_some
    exact find_foldl_assign hitems hitem
  rw [boxWeight_cons, if_neg (by simp [hlive]), hattached]
  refine congrArg (weigh f items + ·) (boxWeight_congr fun mail hmail hdeleted guid hguid => ?_)
  exact find_foldl_assign_of_notMem (hnew mail hmail hdeleted guid hguid)

theorem found_post (hfound : Found (mails, mItems)) (hitems : (items.map Item.guid).Nodup)
    (hnames : m.items = items.map Item.guid) : Found (m :: mails, addMItems mItems items) := by
  have hold : ∀ guid, guid ∈ items.map Item.guid →
      Keyed.find Item.guid (addMItems mItems items) guid ≠ none := by
    intro guid hguid
    obtain ⟨item, hitem, rfl⟩ := mem_map.mp hguid
    rw [addMItems, find_foldl_assign hitems hitem]
    exact Option.some_ne_none item
  intro mail hmail hdeleted guid hguid
  by_cases hnew : guid ∈ items.map Item.guid
  · exact hold guid hnew
  · rcases mem_cons.mp hmail with rfl | hmail
    · exact absurd (hnames ▸ hguid) hnew
    · rw [addMItems, find_foldl_assign_of_notMem hnew]
      exact hfound mail hmail hdeleted guid hguid

/-! ### Removing a mail -/

theorem find_removeMItems {guids : List ℕ} (h : guid ∉ guids) :
    Keyed.find Item.guid (removeMItems mItems guids) guid = Keyed.find Item.guid mItems guid := by
  rw [Keyed.find, removeMItems, List.find?_filter, Keyed.find]
  congr 1
  funext item
  by_cases hkey : item.guid = guid
  · simp [hkey, h]
  · simp [hkey]

section

variable (hfound : Found (mails, mItems))
include hfound

/-- The items of a removed mail are forgotten. -/
theorem boxWeight_forget (hids : (mails.map Mail.messageID).Nodup)
    (hunique : ∀ guid, boxWeight (place guid) (mails, mItems) ≤ 1) (hm : m ∈ mails)
    (hdeleted : m.deleted = false) :
    boxWeight f (mails.filter fun mail => !(mail.messageID = m.messageID),
        removeMItems mItems m.items) =
      boxWeight f (mails.filter fun mail => !(mail.messageID = m.messageID), mItems) := by
  refine boxWeight_congr fun mail hmail hlive guid hguid => find_removeMItems fun hnamed => ?_
  obtain ⟨hmail, hne⟩ := mem_filter.mp hmail
  exact notMem_of_unique hfound hids hunique hm hmail (by simpa using hne) hdeleted hlive hnamed hguid

theorem found_remove : Found (mails.filter fun mail => !(mail.messageID = m.messageID), mItems) :=
  fun mail hmail => hfound mail (mem_filter.mp hmail).1

theorem found_forget (hids : (mails.map Mail.messageID).Nodup)
    (hunique : ∀ guid, boxWeight (place guid) (mails, mItems) ≤ 1) (hm : m ∈ mails)
    (hdeleted : m.deleted = false) :
    Found (mails.filter fun mail => !(mail.messageID = m.messageID), removeMItems mItems m.items) := by
  intro mail hmail hlive guid hguid
  obtain ⟨hmail, hne⟩ := mem_filter.mp hmail
  have hother : guid ∉ m.items := fun hnamed =>
    notMem_of_unique hfound hids hunique hm hmail (by simpa using hne) hdeleted hlive hnamed hguid
  rw [find_removeMItems hother]
  exact hfound mail hmail hlive guid hguid

end

/-! ### Overwriting a mail -/

/-- Overwriting a mail by one with the same items. -/
theorem boxWeight_put {m' : Mail} (hids : (mails.map Mail.messageID).Nodup) (hm : m ∈ mails)
    (hid : m'.messageID = m.messageID) (hlive : m'.deleted = m.deleted) (hitems : m'.items = m.items) :
    boxWeight f (Keyed.put Mail.messageID mails m', mItems) = boxWeight f (mails, mItems) := by
  rw [boxWeight, map_put]
  · rfl
  · intro mail hmail hkey
    rw [eq_of_key hids hmail hm (hkey.trans hid), attached, attached, hlive, hitems]

theorem found_put {m' : Mail} (hfound : Found (mails, mItems)) (hm : m ∈ mails)
    (hlive : m'.deleted = m.deleted) (hitems : ∀ guid ∈ m'.items, guid ∈ m.items) :
    Found (Keyed.put Mail.messageID mails m', mItems) := by
  intro mail hmail hdeleted guid hguid
  rcases mem_put_iff.mp hmail with ⟨rfl, -⟩ | ⟨hmail, -⟩
  · exact hfound m hm (hlive ▸ hdeleted) guid (hitems guid hguid)
  · exact hfound mail hmail hdeleted guid hguid

/-- The mail after an item has been taken. -/
def Mail.without (m : Mail) (guid : ℕ) : Mail := { m with items := m.items.erase guid, COD := 0 }

section

variable (hfound : Found (mails, mItems)) (hids : (mails.map Mail.messageID).Nodup)
include hfound hids

section

variable (hunique : ∀ guid, boxWeight (place guid) (mails, mItems) ≤ 1)
include hunique

section

variable (hm : m ∈ mails) (hdeleted : m.deleted = false) (hguid : guid ∈ m.items)
include hm hdeleted hguid

/-- After an item has been taken, nobody names it. -/
theorem notMem_put_without :
    ∀ mail ∈ Keyed.put Mail.messageID mails (m.without guid), mail.deleted = false →
      guid ∉ mail.items := by
  intro mail hmail hlive
  rcases mem_put_iff.mp hmail with ⟨rfl, -⟩ | ⟨hmail, hne⟩
  · exact (nodup_items_of_unique hfound hids hunique hm hdeleted).not_mem_erase
  · exact notMem_of_unique hfound hids hunique hm hmail hne hdeleted hlive hguid

/-- **An item is taken** out of a mail. -/
theorem boxWeight_take {item : Item} (hitem : Keyed.find Item.guid mItems guid = some item) :
    boxWeight f (Keyed.put Mail.messageID mails (m.without guid), removeMItems mItems [guid]) + f item =
      boxWeight f (mails, mItems) := by
  have hforget : boxWeight f (Keyed.put Mail.messageID mails (m.without guid),
      removeMItems mItems [guid]) =
        boxWeight f (Keyed.put Mail.messageID mails (m.without guid), mItems) := by
    refine boxWeight_congr fun mail hmail hlive other hother => find_removeMItems fun hsame => ?_
    rw [mem_singleton.mp hsame] at hother
    exact notMem_put_without hfound hids hunique hm hdeleted hguid mail hmail hlive hother
  have hattached : weigh f (attached mItems m) = f item + weigh f (attached mItems (m.without guid)) := by
    have hperm := (perm_cons_erase hguid).filterMap (Keyed.find Item.guid mItems)
    rw [filterMap_cons_some hitem] at hperm
    rw [attached, weigh_perm hperm, weigh, map_cons, sum_cons]
    rfl
  have hput := sum_put hids hm (b := m.without guid) rfl
    fun mail => if mail.deleted then 0 else weigh f (attached mItems mail)
  rw [if_neg (show ¬m.deleted = true by simp [hdeleted]),
    if_neg (show ¬(m.without guid).deleted = true by simp [Mail.without, hdeleted]), hattached] at hput
  rw [hforget]
  simp only [boxWeight]
  omega

theorem found_take :
    Found (Keyed.put Mail.messageID mails (m.without guid), removeMItems mItems [guid]) := by
  intro mail hmail hlive other hother
  have hne : other ∉ [guid] := fun hsame => by
    rw [mem_singleton.mp hsame] at hother
    exact notMem_put_without hfound hids hunique hm hdeleted hguid mail hmail hlive hother
  rw [find_removeMItems hne]
  exact (@found_put _ _ _ (m.without guid)) hfound hm rfl (fun _ => mem_of_mem_erase) mail hmail hlive
    other hother

end

end

end

/-! ### Drafts -/

/-- The items of a draft; the rest of it stays. -/
theorem foldl_addItem (draft : MailDraft) : items.foldl MailDraft.addItem draft =
    { draft with items := items.foldl (Keyed.assign Item.guid) draft.items } := by
  induction items generalizing draft with
  | nil => rfl
  | cons item items ih => rw [foldl_cons, ih, foldl_cons, MailDraft.addItem]

/-- The items leave the inventory. -/
theorem foldl_moveItemFromInventory (w : World) (player : ℕ) :
    items.foldl (fun w item => w.moveItemFromInventory player item) w =
      { w with inventory := Function.update w.inventory player
                 ((w.inventory player).filter fun other => !(other.guid ∈ items.map Item.guid)) } := by
  induction items generalizing w with
  | nil =>
    have hall : (w.inventory player).filter (fun other => !(other.guid ∈ [].map Item.guid)) =
        w.inventory player := filter_eq_self.mpr fun _ _ => by simp
    rw [hall, Function.update_eq_self]
    rfl
  | cons item items ih =>
    rw [foldl_cons, ih, World.moveItemFromInventory]
    simp only [Function.update_self, Function.update_idem, filter_filter]
    congr 2
    refine filter_congr fun other _ => ?_
    simp only [map_cons, mem_cons, Bool.decide_or, Bool.not_or]
    exact Bool.and_comm _ _

/-- **The items of a draft** are those that leave the inventory, also when one is named twice. -/
theorem weigh_collected {inventory : List Item} (hnodup : (inventory.map Item.guid).Nodup)
    (hitems : ∀ item ∈ items, item ∈ inventory) :
    weigh f (inventory.filter fun other => !(other.guid ∈ items.map Item.guid)) +
      weigh f (items.foldl (Keyed.assign Item.guid) []) = weigh f inventory := by
  have hmem : ∀ item, item ∈ items.foldl (Keyed.assign Item.guid) [] ↔ item ∈ items := by
    intro item
    refine mem_foldl_assign_iff fun c hc d hd hkey => ?_
    exact eq_of_key hnodup (hitems c hc) (hitems d hd) hkey
  have hperm : (items.foldl (Keyed.assign Item.guid) []).Perm
      (inventory.filter fun other => other.guid ∈ items.map Item.guid) := by
    refine (perm_ext_iff_of_nodup ?_ (hnodup.of_map.filter _)).mpr fun item => ?_
    · have hkeys : ((items.foldl (Keyed.assign Item.guid) []).map Item.guid).Nodup :=
        nodup_foldl_assign (List.Nodup.map_on (fun _ h => by cases h) nodup_nil)
      exact hkeys.of_map
    · rw [hmem, mem_filter, decide_eq_true_eq]
      constructor
      · exact fun hitem => ⟨hitems item hitem, mem_map_of_mem hitem⟩
      · rintro ⟨hitem, hnamed⟩
        obtain ⟨other, hother, hkey⟩ := mem_map.mp hnamed
        exact eq_of_key hnodup (hitems other hother) hitem hkey ▸ hother
  have hsplit := filter_append_perm (fun other => decide (other.guid ∈ items.map Item.guid)) inventory
  rw [weigh_perm hperm, Nat.add_comm, ← weigh_append, weigh_perm hsplit]

/-! ### Storing -/

variable {env : Env} {inventory : List Item} {item : Item} {itemGuid : ℕ}

theorem guids_addToStack (count : ℕ) :
    (addToStack inventory guid count).map Item.guid = inventory.map Item.guid := by
  rw [addToStack, map_map]
  refine map_congr_left fun stack _ => ?_
  rw [Function.comp_apply]
  split_ifs <;> rfl

/-- A stack of the entry grows. -/
theorem amount_addToStack {entry count : ℕ} {stack : Item}
    (hnodup : (inventory.map Item.guid).Nodup) (hstack : stack ∈ inventory) : weigh (amount entry) (addToStack inventory stack.guid count) =
      weigh (amount entry) inventory + if stack.entry = entry then count else 0 := by
  have hput : addToStack inventory stack.guid count =
      Keyed.put Item.guid inventory { stack with count := stack.count + count } := by
    refine map_congr_left fun other hother => ?_
    by_cases hkey : other.guid = stack.guid
    · rw [if_pos hkey, if_pos hkey, eq_of_key hnodup hother hstack hkey]
    · rw [if_neg hkey, if_neg hkey]
  have hsum := sum_put hnodup hstack (b := { stack with count := stack.count + count }) rfl
    (amount entry)
  rw [hput, weigh, weigh]
  simp only [amount] at hsum ⊢
  split_ifs at hsum ⊢ <;> omega

/-- **The guids after storing**: those of the inventory, those of clones, and that of the item unless it
has been merged. -/
theorem guids_storeItem (dest : List (Option ℕ × ℕ)) (hdest : dest ≠ []) :
    itemGuid ≤ (storeItem env item inventory itemGuid dest).2 ∧
    (storeItem env item inventory itemGuid dest).1.map Item.guid = inventory.map Item.guid ++
      List.range' itemGuid ((storeItem env item inventory itemGuid dest).2 - itemGuid) ++
      if merged dest then [] else [item.guid] := by
  induction inventory, itemGuid, dest using storeItem.induct env item with
  | case1 => exact absurd rfl hdest
  | case2 inventory itemGuid count => simp [storeItem, merged]
  | case3 inventory itemGuid guid count => simp [storeItem, merged, guids_addToStack]
  | case4 inventory itemGuid count place dest clone ih =>
    obtain ⟨hle, hguids⟩ := ih (cons_ne_nil _ _)
    have hmerged : merged ((none, count) :: place :: dest) = merged (place :: dest) := rfl
    rw [storeItem, hmerged, hguids]
    refine ⟨Nat.le_of_succ_le hle, ?_⟩
    obtain ⟨n, hn⟩ := Nat.exists_eq_add_of_le hle
    have hcount : itemGuid + 1 + n - itemGuid = n + 1 := by omega
    rw [hn, Nat.add_sub_cancel_left, hcount, List.range'_succ, map_append, append_assoc,
      append_assoc, append_assoc]
    rfl
  | case5 inventory itemGuid guid count place dest ih =>
    obtain ⟨hle, hguids⟩ := ih (cons_ne_nil _ _)
    have hmerged : merged ((some guid, count) :: place :: dest) = merged (place :: dest) := rfl
    rw [storeItem, hmerged, hguids, guids_addToStack]
    exact ⟨hle, rfl⟩

/-- **The count of an entry after storing**. -/
theorem amount_storeItem (entry : ℕ) (dest : List (Option ℕ × ℕ)) (hdest : dest ≠ [])
    (hnodup : (inventory.map Item.guid).Nodup) (hguids : ∀ other ∈ inventory, other.guid < itemGuid)
    (hcounts : ∀ place ∈ dest, place.2 ≤ env.maxStackSize item.entry)
    (hstacks : ∀ place ∈ dest, ∀ guid ∈ place.1,
      ∃ stack ∈ inventory, stack.guid = guid ∧ stack.entry = item.entry) :
    weigh (amount entry) (storeItem env item inventory itemGuid dest).1 =
      weigh (amount entry) inventory +
        if item.entry = entry then (dest.map Prod.snd).sum else 0 := by
  induction inventory, itemGuid, dest using storeItem.induct env item with
  | case1 => exact absurd rfl hdest
  | case2 inventory itemGuid count =>
    rw [storeItem, weigh_append]
    simp [weigh, amount]
  | case3 inventory itemGuid guid count =>
    obtain ⟨stack, hstack, rfl, hentry⟩ := hstacks (some guid, count) mem_cons_self guid rfl
    rw [storeItem, amount_addToStack hnodup hstack, hentry]
    simp
  | case4 inventory itemGuid count place dest clone ih =>
    obtain ⟨hcount, hcounts⟩ := forall_mem_cons.mp hcounts
    obtain ⟨-, hstacks⟩ := forall_mem_cons.mp hstacks
    have hclone : weigh (amount entry) [clone] = if item.entry = entry then count else 0 := by
      simp [weigh, amount, clone, Nat.min_eq_left hcount]
    have hnew : itemGuid ∉ inventory.map Item.guid := fun hmem => by
      obtain ⟨other, hother, hkey⟩ := mem_map.mp hmem
      exact Nat.lt_irrefl _ (hkey ▸ hguids other hother)
    rw [storeItem, ih (cons_ne_nil _ _) ?_ ?_ hcounts ?_, weigh_append, hclone,
      map_cons (l := place :: dest), sum_cons]
    · split_ifs <;> omega
    · rw [map_append]
      exact nodup_append_comm.mp (nodup_cons.mpr ⟨hnew, hnodup⟩)
    · refine forall_mem_append.mpr
        ⟨fun other hother => Nat.lt_succ_of_lt (hguids other hother), fun other hother => ?_⟩
      rw [mem_singleton.mp hother]
      exact Nat.lt_succ_self itemGuid
    · intro place hplace guid hguid
      obtain ⟨stack, hstack, hrest⟩ := hstacks place hplace guid hguid
      exact ⟨stack, mem_append_left _ hstack, hrest⟩
  | case5 inventory itemGuid guid count place dest ih =>
    obtain ⟨-, hrest⟩ := forall_mem_cons.mp hcounts
    obtain ⟨hfirst, hothers⟩ := forall_mem_cons.mp hstacks
    obtain ⟨stack, hmem, rfl, hentry⟩ := hfirst guid rfl
    rw [storeItem, ih (cons_ne_nil _ _) ?_ ?_ hrest ?_, amount_addToStack hnodup hmem, hentry,
      map_cons (l := place :: dest), sum_cons]
    · split_ifs <;> omega
    · rw [guids_addToStack]
      exact hnodup
    · intro other hother
      have hmem : other.guid ∈ inventory.map Item.guid :=
        (@guids_addToStack stack.guid) count ▸ mem_map_of_mem hother
      obtain ⟨same, hsame, hkey⟩ := mem_map.mp hmem
      exact hkey ▸ hguids same hsame
    · intro place hplace guid hguid
      obtain ⟨other, hother, hkey, hsame⟩ := hothers place hplace guid hguid
      refine ⟨_, mem_map_of_mem hother, ?_⟩
      split_ifs
      · exact ⟨hkey, hsame⟩
      · exact ⟨hkey, hsame⟩

end IscServer.Mails
