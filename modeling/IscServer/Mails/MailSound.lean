import IscServer.Library.Run
import IscServer.Mails.MailGoods

/-!
# Sound Mail

What holds of the mailboxes, the items, the CODs and the waiting continuations between any two packets,
and what the parts of the handlers do to it: paying, taking items from the inventory, posting a mail,
removing one and taking out of one.

## Main results

* `Sound` — the invariant.
* `Sound.pay`, `Sound.collect`, `Sound.post`, `Sound.remove`, `Sound.take`, `Sound.store` — the parts of the
  handlers keep it.
* `total_post`, `total_remove`, `total_take` and the like — what they do to the items and the money.
-/

namespace IscServer.Mails

open List Function Keyed

open IscServer.Player

variable {env : Env} {w : World} {characters : Finset ℕ} {f : Item → ℕ} {items : List Item}

/-! ### Totals -/

/-- The mailbox of a character. -/
def World.box (w : World) (player : ℕ) : List Mail × List Item := (w.mails player, w.mItems player)

/-- **All items** in inventories and undeleted mails, weighed. -/
def World.total (characters : Finset ℕ) (w : World) (f : Item → ℕ) : ℕ :=
  Tally.tally characters (weigh f) w.inventory + Tally.tally characters (boxWeight f) w.box

/-- In how many places the item with a guid is. -/
def World.places (characters : Finset ℕ) (w : World) (guid : ℕ) : ℕ := w.total characters (place guid)

/-- The count of all items of an entry. -/
def World.itemCount (characters : Finset ℕ) (w : World) (entry : ℕ) : ℕ :=
  w.total characters (amount entry)

/-- The money in undeleted mails. -/
def mailMoney (mails : List Mail) : ℕ := (mails.map fun m => if m.deleted then 0 else m.money).sum

/-- **All money** in purses and undeleted mails. -/
def World.wealth (characters : Finset ℕ) (w : World) : ℕ :=
  Tally.tally characters id w.money + Tally.tally characters mailMoney w.mails

/-! ### COD -/

/-- The COD that a mail was posted with. -/
def postedCod (history : List Event) (messageID : ℕ) : Option ℕ :=
  history.findSome? fun
    | .posted id cod _ => if id = messageID then some cod else none
    | _ => none

/-- What has been paid at each taking of an item of a mail, latest first. -/
def paidFor (history : List Event) (messageID : ℕ) : List ℕ :=
  history.filterMap fun
    | .took id _ paid _ => if id = messageID then some paid else none
    | _ => none

/-- **The COD is paid once**, with the first item, and nothing with the others. -/
def CodOnce (history : List Event) (messageID : ℕ) : Prop :=
  ∀ cod ∈ postedCod history messageID,
    paidFor history messageID = [] ∨ ∃ n, paidFor history messageID = List.replicate n 0 ++ [cod]

/-- The COD of a mail is still to be paid, or has been. -/
def Owes (history : List Event) (m : Mail) : Prop :=
  (postedCod history m.messageID = some m.COD ∧ paidFor history m.messageID = []) ∨
    (m.COD = 0 ∧ ∃ cod n, postedCod history m.messageID = some cod ∧
      paidFor history m.messageID = List.replicate n 0 ++ [cod])

/-! ### The invariant -/

/-- An existing character that is no game master. -/
structure Existing (env : Env) (characters : Finset ℕ) (character : ℕ) : Prop where
  mem : character ∈ characters
  ne_zero : character ≠ 0
  account : env.accountId character ≠ 0
  noGameMaster : env.isGameMaster character = false

/-- A mail that a character has sent. -/
def Mail.FromCharacter (m : Mail) : Prop := m.messageType = .normal ∧ m.sender ≠ 0

instance (m : Mail) : Decidable m.FromCharacter := inferInstanceAs (Decidable (_ ∧ _))

/-- A mail lies in the mailbox of its receiver, and its sender exists if it can go back to him. -/
structure Fair (env : Env) (characters : Finset ℕ) (player : ℕ) (m : Mail) : Prop where
  receiver : m.receiver = player
  money : m.money ≤ maxMoneyAmount
  sender : m.FromCharacter ∨ 0 < m.COD → Existing env characters m.sender

/-- What a waiting continuation has been checked for. -/
structure Waiting (env : Env) (characters : Finset ℕ) (c : Continuation) : Prop where
  player : Existing env characters c.player
  receiver : Existing env characters c.receiver
  reqmoney : c.reqmoney = c.cost + c.sendMoney

/-- **The invariant**. -/
structure Sound (env : Env) (characters : Finset ℕ) (w : World) : Prop where
  purse : ∀ player ∈ characters, w.money player ≤ maxMoneyAmount
  ids : ∀ player, ((w.mails player).map Mail.messageID).Nodup
  apart : ∀ player other, ∀ m ∈ w.mails player, ∀ m' ∈ w.mails other,
    m.messageID = m'.messageID → player = other
  fresh : ∀ player, ∀ m ∈ w.mails player, m.messageID < w.mailId
  fair : ∀ player, ∀ m ∈ w.mails player, Fair env characters player m
  found : ∀ player, Found (w.box player)
  unique : ∀ guid, w.places characters guid ≤ 1
  guids : ∀ guid, w.itemGuid ≤ guid → w.places characters guid = 0
  owes : ∀ player, ∀ m ∈ w.mails player, Owes w.history m
  codOnce : ∀ messageID, CodOnce w.history messageID
  unposted : ∀ messageID, w.mailId ≤ messageID →
    postedCod w.history messageID = none ∧ paidFor w.history messageID = []
  waiting : ∀ c ∈ w.pending, Waiting env characters c

variable {player guid : ℕ} {m : Mail}

/-! ### Places -/

theorem inventory_le_total (hplayer : player ∈ characters) :
    weigh f (w.inventory player) ≤ w.total characters f :=
  Nat.le_trans (Tally.le_tally hplayer (weigh f) w.inventory) (Nat.le_add_right _ _)

theorem box_le_total (hplayer : player ∈ characters) :
    boxWeight f (w.box player) ≤ w.total characters f :=
  Nat.le_trans (Tally.le_tally hplayer (boxWeight f) w.box) (Nat.le_add_left _ _)

section

variable (h : Sound env characters w) (hplayer : player ∈ characters)
include h hplayer

theorem Sound.nodup_inventory : ((w.inventory player).map Item.guid).Nodup :=
  nodup_of_place fun guid => Nat.le_trans (inventory_le_total hplayer) (h.unique guid)

theorem Sound.unique_box : ∀ guid, boxWeight (place guid) (w.mails player, w.mItems player) ≤ 1 :=
  fun guid => Nat.le_trans (box_le_total hplayer) (h.unique guid)

/-- A guid that an undeleted mail names is in a place. -/
theorem Sound.places_of_named (hm : m ∈ w.mails player) (hdeleted : m.deleted = false)
    (hguid : guid ∈ m.items) :
    0 < w.places characters guid :=
  Nat.lt_of_lt_of_le (boxWeight_pos_of_named (h.found player) hm hdeleted hguid)
    (box_le_total hplayer)

theorem guid_lt_of_mem {item : Item} (hitem : item ∈ w.inventory player) : item.guid < w.itemGuid := by
  by_contra hle
  have hzero := h.guids item.guid (Nat.le_of_not_lt hle)
  have hpos := Nat.lt_of_lt_of_le (place_pos_of_mem hitem)
    (inventory_le_total (w := w) (f := place item.guid) hplayer)
  rw [World.places] at hzero
  omega

end

/-! ### Paying -/

/-- Paying what one has. -/
theorem wealth_pay {amount : ℕ} (hplayer : player ∈ characters) (hle : amount ≤ w.money player)
    (hmax : w.money player ≤ maxMoneyAmount) :
    (w.pay player amount).wealth characters + amount = w.wealth characters := by
  have htally := Tally.tally_update hplayer id w.money (modifyMoney (w.money player) (-int32 amount))
  simp only [World.wealth, World.pay, modifyMoney_neg hle hmax, id_eq] at htally ⊢
  omega

theorem Sound.pay {amount : ℕ} (h : Sound env characters w) (hle : amount ≤ w.money player) :
    Sound env characters (w.pay player amount) := by
  refine { h with purse := fun other hother => ?_ }
  simp only [World.pay]
  by_cases hsame : other = player
  · subst hsame
    have hmax := h.purse other hother
    rw [update_self, modifyMoney_neg hle hmax]
    omega
  · rw [update_of_ne hsame]
    exact h.purse other hother

/-! ### Inventories -/

/-- The inventory of a character is replaced. -/
def World.withInventory (w : World) (player : ℕ) (inventory : List Item) : World :=
  { w with inventory := Function.update w.inventory player inventory }

theorem total_withInventory (hplayer : player ∈ characters) (inventory : List Item) :
    (w.withInventory player inventory).total characters f + weigh f (w.inventory player) =
      w.total characters f + weigh f inventory := by
  have htally := Tally.tally_update hplayer (weigh f) w.inventory inventory
  have hbox : (w.withInventory player inventory).box = w.box := rfl
  have hinventory : (w.withInventory player inventory).inventory =
      Function.update w.inventory player inventory := rfl
  rw [World.total, World.total, hbox, hinventory]
  omega

/-- An inventory that holds fewer items. -/
theorem Sound.withInventory (h : Sound env characters w) {inventory : List Item}
    (hplayer : player ∈ characters)
    (hless : ∀ guid, weigh (place guid) inventory ≤ weigh (place guid) (w.inventory player)) :
    Sound env characters (w.withInventory player inventory) := by
  have hle : ∀ guid, (w.withInventory player inventory).places characters guid ≤
      w.places characters guid := by
    intro guid
    have htotal := total_withInventory (w := w) (f := place guid) hplayer inventory
    have hguid := hless guid
    simp only [World.places]
    omega
  exact { h with
    unique := fun guid => Nat.le_trans (hle guid) (h.unique guid)
    guids := fun guid hguid => Nat.le_zero.mp (h.guids guid hguid ▸ hle guid) }

/-! ### Mailboxes -/

/-- The mailbox of a character is replaced. -/
def World.withBox (w : World) (player : ℕ) (box : List Mail × List Item) : World :=
  { w with mails := Function.update w.mails player box.1
           mItems := Function.update w.mItems player box.2 }

theorem box_withBox (w : World) (player : ℕ) (box : List Mail × List Item) :
    (w.withBox player box).box = Function.update w.box player box := by
  funext other
  by_cases hsame : other = player
  · subst hsame
    simp only [World.box, World.withBox, update_self]
  · simp only [World.box, World.withBox, update_of_ne hsame]

theorem total_withBox (hplayer : player ∈ characters) (box : List Mail × List Item) :
    (w.withBox player box).total characters f + boxWeight f (w.box player) =
      w.total characters f + boxWeight f box := by
  have htally := Tally.tally_update hplayer (boxWeight f) w.box box
  have hinventory : (w.withBox player box).inventory = w.inventory := rfl
  rw [World.total, World.total, box_withBox, hinventory]
  omega

theorem wealth_withBox (hplayer : player ∈ characters) (box : List Mail × List Item) :
    (w.withBox player box).wealth characters + mailMoney (w.mails player) =
      w.wealth characters + mailMoney box.1 := by
  have htally := Tally.tally_update hplayer mailMoney w.mails box.1
  have hmoney : (w.withBox player box).money = w.money := rfl
  have hmails : (w.withBox player box).mails = Function.update w.mails player box.1 := rfl
  rw [World.wealth, World.wealth, hmoney, hmails]
  omega

theorem mem_update_iff {other : ℕ} {mails : ℕ → List Mail} {box : List Mail} :
    m ∈ Function.update mails player box other ↔
      (other = player ∧ m ∈ box) ∨ (other ≠ player ∧ m ∈ mails other) := by
  by_cases hsame : other = player
  · subst hsame
    simp
  · simp [hsame]

/-- A mail that has come out of another by taking from it. -/
structure Derives (m' m : Mail) : Prop where
  id : m'.messageID = m.messageID
  receiver : m'.receiver = m.receiver
  messageType : m'.messageType = m.messageType
  sender : m'.sender = m.sender
  money : m'.money ≤ m.money
  cod : m'.COD ≤ m.COD

theorem Derives.refl (m : Mail) : Derives m m := ⟨rfl, rfl, rfl, rfl, Nat.le_refl _, Nat.le_refl _⟩

theorem Fair.derives {m' : Mail} (h : Fair env characters player m) (hderives : Derives m' m) :
    Fair env characters player m' := by
  refine ⟨hderives.receiver.trans h.receiver, Nat.le_trans hderives.money h.money, fun hback => ?_⟩
  rw [hderives.sender]
  refine h.sender ?_
  rcases hback with hfrom | hcod
  · rw [Mail.FromCharacter, hderives.messageType, hderives.sender] at hfrom
    exact Or.inl hfrom
  · exact Or.inr (Nat.lt_of_lt_of_le hcod hderives.cod)

/-- **A mailbox out of which something has been taken**, and what is noted of it. -/
theorem Sound.withBox (h : Sound env characters w) {box : List Mail × List Item}
    {history : List Event} (hplayer : player ∈ characters) (hids : (box.1.map Mail.messageID).Nodup)
    (hderives : ∀ m' ∈ box.1, ∃ m ∈ w.mails player, Derives m' m) (hfound : Found box)
    (hless : ∀ guid, boxWeight (place guid) box ≤ boxWeight (place guid) (w.box player))
    (howes : ∀ other, ∀ m ∈ (w.withBox player box).mails other, Owes history m)
    (hcod : ∀ messageID, CodOnce history messageID)
    (hunposted : ∀ messageID, w.mailId ≤ messageID →
      postedCod history messageID = none ∧ paidFor history messageID = []) :
    Sound env characters { w.withBox player box with history := history } := by
  have hmails : ∀ other, ∀ m' ∈ (w.withBox player box).mails other,
      ∃ m ∈ w.mails other, Derives m' m := by
    intro other m' hm'
    rcases mem_update_iff.mp hm' with ⟨rfl, htaken⟩ | ⟨-, hkept⟩
    · exact hderives m' htaken
    · exact ⟨m', hkept, Derives.refl m'⟩
  have hle : ∀ guid, (w.withBox player box).places characters guid ≤ w.places characters guid := by
    intro guid
    have htotal := total_withBox (w := w) (f := place guid) hplayer box
    have hguid := hless guid
    simp only [World.places]
    omega
  refine ⟨h.purse, fun other => ?_, ?_, ?_, ?_, fun other => ?_, ?_, ?_, howes, hcod, hunposted,
    h.waiting⟩
  · by_cases hsame : other = player
    · subst hsame
      simp only [World.withBox, update_self]
      exact hids
    · simp only [World.withBox, update_of_ne hsame]
      exact h.ids other
  · intro one other m hm m' hm' hid
    obtain ⟨n, hn, hfirst⟩ := hmails one m hm
    obtain ⟨n', hn', hsecond⟩ := hmails other m' hm'
    exact h.apart one other n hn n' hn' (by rw [← hfirst.id, ← hsecond.id, hid])
  · intro other m hm
    obtain ⟨n, hn, hfirst⟩ := hmails other m hm
    exact hfirst.id ▸ h.fresh other n hn
  · intro other m hm
    obtain ⟨n, hn, hfirst⟩ := hmails other m hm
    exact (h.fair other n hn).derives hfirst
  · have hbox : ({ w.withBox player box with history := history } : World).box other =
        Function.update w.box player box other := congrFun (box_withBox w player box) other
    rw [hbox]
    by_cases hsame : other = player
    · subst hsame
      rw [update_self]
      exact hfound
    · rw [update_of_ne hsame]
      exact h.found other
  · exact fun guid => Nat.le_trans (hle guid) (h.unique guid)
  · exact fun guid hguid => Nat.le_zero.mp (h.guids guid hguid ▸ hle guid)

/-! ### Posting -/

theorem postedCod_cons_posted (messageID id cod cost : ℕ) (history : List Event) :
    postedCod (.posted id cod cost :: history) messageID =
      if id = messageID then some cod else postedCod history messageID := by
  by_cases h : id = messageID
  · simp [postedCod, h]
  · simp [postedCod, h]

theorem paidFor_cons_took (messageID id guid paid : ℕ) (merged : Bool) (history : List Event) :
    paidFor (.took id guid paid merged :: history) messageID =
      if id = messageID then paid :: paidFor history messageID else paidFor history messageID := by
  by_cases h : id = messageID
  · simp [paidFor, h]
  · simp [paidFor, h]

/-- What a draft must be to be posted. -/
structure Postable (env : Env) (characters : Finset ℕ) (w : World) (draft : MailDraft) : Prop where
  sender : Existing env characters draft.sender
  money : draft.money ≤ maxMoneyAmount
  nodup : (draft.items.map Item.guid).Nodup
  new : ∀ item ∈ draft.items, w.places characters item.guid = 0
  known : ∀ item ∈ draft.items, item.guid < w.itemGuid

variable {draft : MailDraft} {receiver deliverTime cost : ℕ}

/-- The mail that is made of a draft. -/
def World.newMail (w : World) (draft : MailDraft) (receiver deliverTime : ℕ) : Mail :=
  ⟨w.mailId, .normal, draft.sender, receiver, deliverTime, draft.money, draft.COD,
    draft.items.map Item.guid, false⟩

theorem sendMailTo_eq (w : World) (draft : MailDraft) (receiver deliverTime cost : ℕ) :
    w.sendMailTo draft receiver deliverTime cost =
      { w.withBox receiver (w.newMail draft receiver deliverTime :: w.mails receiver,
          addMItems (w.mItems receiver) draft.items) with
        mailId := w.mailId + 1
        history := .posted w.mailId draft.COD cost :: w.history } := rfl

/-- **What a posted mail holds**. -/
theorem total_post (h : Sound env characters w) (hreceiver : receiver ∈ characters)
    (hdraft : Postable env characters w draft) :
    (w.sendMailTo draft receiver deliverTime cost).total characters f =
      w.total characters f + weigh f draft.items := by
  have hbox := @boxWeight_post f draft.items (w.mails receiver) (w.mItems receiver)
    (w.newMail draft receiver deliverTime) hdraft.nodup rfl rfl fun mail hmail hlive guid hguid hin => by
      obtain ⟨item, hitem, rfl⟩ := mem_map.mp hin
      have hpos := h.places_of_named hreceiver hmail hlive hguid
      have hzero := hdraft.new item hitem
      omega
  have htotal := (@total_withBox w characters f receiver) hreceiver
    (w.newMail draft receiver deliverTime :: w.mails receiver,
      addMItems (w.mItems receiver) draft.items)
  rw [sendMailTo_eq]
  change (w.withBox receiver _).total characters f = _
  simp only [World.box] at htotal
  omega

theorem wealth_post (hreceiver : receiver ∈ characters) :
    (w.sendMailTo draft receiver deliverTime cost).wealth characters =
      w.wealth characters + draft.money := by
  have hwealth := (@wealth_withBox w characters receiver) hreceiver
    (w.newMail draft receiver deliverTime :: w.mails receiver,
      addMItems (w.mItems receiver) draft.items)
  have hmoney : mailMoney (w.newMail draft receiver deliverTime :: w.mails receiver) =
      draft.money + mailMoney (w.mails receiver) := rfl
  dsimp only at hwealth
  rw [sendMailTo_eq]
  change (w.withBox receiver _).wealth characters = _
  omega

/-- **A mail is posted**. -/
theorem Sound.post (h : Sound env characters w) (hreceiver : receiver ∈ characters)
    (hdraft : Postable env characters w draft) :
    Sound env characters (w.sendMailTo draft receiver deliverTime cost) := by
  have hmails : ∀ player, ∀ m ∈ (w.sendMailTo draft receiver deliverTime cost).mails player,
      (player = receiver ∧ m = w.newMail draft receiver deliverTime) ∨ m ∈ w.mails player := by
    intro player m hm
    rcases mem_update_iff.mp hm with ⟨rfl, hm⟩ | ⟨-, hm⟩
    · rcases mem_cons.mp hm with rfl | hm
      · exact Or.inl ⟨rfl, rfl⟩
      · exact Or.inr hm
    · exact Or.inr hm
  have hold : ∀ messageID, messageID < w.mailId →
      postedCod (.posted w.mailId draft.COD cost :: w.history) messageID =
        postedCod w.history messageID := by
    intro messageID hlt
    rw [postedCod_cons_posted, if_neg (by omega)]
  have hplaces : ∀ guid, (w.sendMailTo draft receiver deliverTime cost).places characters guid =
      w.places characters guid + (draft.items.map Item.guid).count guid := by
    intro guid
    rw [World.places, total_post h hreceiver hdraft, weigh_place]
    rfl
  refine ⟨h.purse, fun player => ?_, fun one other m hm m' hm' hid => ?_, fun player m hm => ?_,
    fun player m hm => ?_, fun player => ?_, fun guid => ?_, fun guid hguid => ?_,
    fun player m hm => ?_, fun messageID => ?_, fun messageID hle => ?_, h.waiting⟩
  · by_cases hsame : player = receiver
    · subst hsame
      simp only [World.sendMailTo, update_self, map_cons, nodup_cons]
      refine ⟨fun hin => ?_, h.ids player⟩
      obtain ⟨m, hm, hid⟩ := mem_map.mp hin
      have hlt := h.fresh player m hm
      omega
    · simp only [World.sendMailTo, update_of_ne hsame]
      exact h.ids player
  · rcases hmails one m hm with ⟨rfl, rfl⟩ | hin <;> rcases hmails other m' hm' with ⟨rfl, rfl⟩ | hin'
    · rfl
    · exact absurd hid (Nat.ne_of_gt (h.fresh other m' hin'))
    · exact absurd hid (Nat.ne_of_lt (h.fresh one m hin))
    · exact h.apart one other m hin m' hin' hid
  · rcases hmails player m hm with ⟨rfl, rfl⟩ | hin
    · exact Nat.lt_succ_self w.mailId
    · exact Nat.lt_succ_of_lt (h.fresh player m hin)
  · rcases hmails player m hm with ⟨rfl, rfl⟩ | hin
    · exact ⟨rfl, hdraft.money, fun _ => hdraft.sender⟩
    · exact h.fair player m hin
  · have hbox : (w.sendMailTo draft receiver deliverTime cost).box player =
        Function.update w.box receiver (w.newMail draft receiver deliverTime :: w.mails receiver,
          addMItems (w.mItems receiver) draft.items) player :=
      congrFun (box_withBox w receiver (w.newMail draft receiver deliverTime :: w.mails receiver,
        addMItems (w.mItems receiver) draft.items)) player
    rw [hbox]
    by_cases hsame : player = receiver
    · subst hsame
      rw [update_self]
      exact found_post (h.found player) hdraft.nodup rfl
    · rw [update_of_ne hsame]
      exact h.found player
  · rw [hplaces]
    by_cases hin : guid ∈ draft.items.map Item.guid
    · obtain ⟨item, hitem, rfl⟩ := mem_map.mp hin
      have hcount := nodup_iff_count_le_one.mp hdraft.nodup item.guid
      have hzero := hdraft.new item hitem
      omega
    · rw [count_eq_zero_of_not_mem hin]
      exact h.unique guid
  · have hnot : guid ∉ draft.items.map Item.guid := fun hin => by
      obtain ⟨item, hitem, rfl⟩ := mem_map.mp hin
      exact absurd (hdraft.known item hitem) (Nat.not_lt_of_le hguid)
    rw [hplaces, count_eq_zero_of_not_mem hnot]
    exact h.guids guid hguid
  · rcases hmails player m hm with ⟨rfl, rfl⟩ | hin
    · refine Or.inl ⟨?_, (h.unposted w.mailId (Nat.le_refl _)).2⟩
      exact (postedCod_cons_posted _ _ _ _ _).trans (if_pos rfl)
    · have howes := h.owes player m hin
      rw [Owes, ← hold m.messageID (h.fresh player m hin)] at howes
      exact howes
  · intro cod hcod
    by_cases hnew : w.mailId = messageID
    · subst hnew
      exact Or.inl (h.unposted w.mailId (Nat.le_refl _)).2
    · have hposted := (postedCod_cons_posted messageID w.mailId draft.COD cost w.history).trans
        (if_neg hnew)
      exact h.codOnce messageID cod (hposted ▸ hcod)
  · have hlt : w.mailId < messageID := hle
    obtain ⟨hposted, hpaid⟩ := h.unposted messageID (Nat.le_of_lt hlt)
    exact ⟨(postedCod_cons_posted _ _ _ _ _).trans ((if_neg (Nat.ne_of_lt hlt)).trans hposted), hpaid⟩

/-! ### Removing a mail -/

theorem mailMoney_remove {mails : List Mail} (hids : (mails.map Mail.messageID).Nodup)
    (hm : m ∈ mails) (hdeleted : m.deleted = false) :
    mailMoney (mails.filter fun mail => !(mail.messageID = m.messageID)) + m.money = mailMoney mails := by
  have hperm := perm_cons_filter hids hm
  rw [mailMoney, mailMoney, (hperm.map _).sum_eq, map_cons, sum_cons, if_neg (by simp [hdeleted])]
  exact Nat.add_comm _ _

/-- A mailbox without one of its mails; the objects of its items may be forgotten with it. -/
def World.without (w : World) (player : ℕ) (m : Mail) (mItems : List Item) : World :=
  w.withBox player ((w.mails player).filter fun mail => !(mail.messageID = m.messageID), mItems)

section

variable (h : Sound env characters w) (hplayer : player ∈ characters)
include h hplayer

section

variable (hm : m ∈ w.mails player) (hdeleted : m.deleted = false)
include hm hdeleted

theorem total_without {mItems : List Item}
    (hitems : mItems = w.mItems player ∨ mItems = removeMItems (w.mItems player) m.items) :
    (w.without player m mItems).total characters f + weigh f (attached (w.mItems player) m) =
      w.total characters f := by
  have htotal := (@total_withBox w characters f player) hplayer
    ((w.mails player).filter fun mail => !(mail.messageID = m.messageID), mItems)
  have hremove := (@boxWeight_remove f _ (w.mItems player)) (h.ids player) hm hdeleted
  have hforget : boxWeight f ((w.mails player).filter fun mail => !(mail.messageID = m.messageID), mItems) =
      boxWeight f ((w.mails player).filter fun mail => !(mail.messageID = m.messageID),
        w.mItems player) := by
    rcases hitems with rfl | rfl
    · rfl
    · exact boxWeight_forget (h.found player) (h.ids player) (h.unique_box hplayer) hm hdeleted
  rw [World.without]
  simp only [World.box] at htotal
  omega

theorem wealth_without (mItems : List Item) :
    (w.without player m mItems).wealth characters + m.money = w.wealth characters := by
  have hwealth := (@wealth_withBox w characters player) hplayer
    ((w.mails player).filter fun mail => !(mail.messageID = m.messageID), mItems)
  have hmoney := mailMoney_remove (h.ids player) hm hdeleted
  dsimp only at hwealth
  rw [World.without]
  omega

/-- **A mail is removed**. -/
theorem Sound.remove {mItems : List Item}
    (hitems : mItems = w.mItems player ∨ mItems = removeMItems (w.mItems player) m.items) :
    Sound env characters (w.without player m mItems) := by
  refine @Sound.withBox _ _ _ _ h _ w.history hplayer ?_ (fun m' hm' => ⟨m', ?_, Derives.refl m'⟩) ?_
    (fun guid => ?_) (fun other m' hm' => ?_) h.codOnce h.unposted
  · exact (h.ids player).sublist (filter_sublist.map _)
  · exact (mem_filter.mp hm').1
  · rcases hitems with rfl | rfl
    · exact found_remove (h.found player)
    · exact found_forget (h.found player) (h.ids player) (h.unique_box hplayer) hm hdeleted
  · have hremove := (@boxWeight_remove (place guid) _ (w.mItems player)) (h.ids player) hm hdeleted
    rcases hitems with rfl | rfl
    · simp only [World.box]
      omega
    · rw [boxWeight_forget (h.found player) (h.ids player) (h.unique_box hplayer) hm hdeleted]
      simp only [World.box]
      omega
  · rcases mem_update_iff.mp hm' with ⟨rfl, hin⟩ | ⟨-, hin⟩
    · exact h.owes other m' (mem_filter.mp hin).1
    · exact h.owes other m' hin

end

end

/-! ### Taking -/

/-- The money of a mail is taken out. -/
theorem Sound.takeMoney (h : Sound env characters w) (hplayer : player ∈ characters)
    (hm : m ∈ w.mails player) :
    Sound env characters (w.putMail player { m with money := 0 }) := by
  have hput : w.putMail player { m with money := 0 } =
      { w.withBox player (Keyed.put Mail.messageID (w.mails player) { m with money := 0 },
          w.mItems player) with history := w.history } := by
    simp only [World.putMail, World.withBox, update_eq_self]
  rw [hput]
  refine @Sound.withBox _ _ _ _ h _ w.history hplayer ?_ (fun m' hm' => ?_) ?_ (fun guid => ?_)
    (fun other m' hm' => ?_) h.codOnce h.unposted
  · rw [keys_put]
    exact h.ids player
  · rcases mem_put_iff.mp hm' with ⟨rfl, -⟩ | ⟨hin, -⟩
    · exact ⟨m, hm, rfl, rfl, rfl, rfl, Nat.zero_le _, Nat.le_refl _⟩
    · exact ⟨m', hin, Derives.refl m'⟩
  · exact found_put (h.found player) hm rfl fun _ hguid => hguid
  · exact Nat.le_of_eq (boxWeight_put (h.ids player) hm rfl rfl rfl)
  · rcases mem_update_iff.mp hm' with ⟨rfl, hin⟩ | ⟨-, hin⟩
    · rcases mem_put_iff.mp hin with ⟨rfl, -⟩ | ⟨hin, -⟩
      · exact h.owes other m hm
      · exact h.owes other m' hin
    · exact h.owes other m' hin

theorem total_takeMoney (h : Sound env characters w) (hplayer : player ∈ characters)
    (hm : m ∈ w.mails player) :
    (w.putMail player { m with money := 0 }).total characters f = w.total characters f := by
  have hput : w.putMail player { m with money := 0 } =
      w.withBox player (Keyed.put Mail.messageID (w.mails player) { m with money := 0 },
          w.mItems player) := by
    simp only [World.putMail, World.withBox, update_eq_self]
  have htotal := (@total_withBox w characters f player) hplayer
    (Keyed.put Mail.messageID (w.mails player) { m with money := 0 }, w.mItems player)
  rw [(@boxWeight_put f _ _ _ { m with money := 0 }) (h.ids player) hm rfl rfl rfl] at htotal
  rw [hput]
  simp only [World.box] at htotal
  omega

theorem mailMoney_put {mails : List Mail} {m' : Mail} (hids : (mails.map Mail.messageID).Nodup)
    (hm : m ∈ mails) (hid : m'.messageID = m.messageID) (hdeleted : m.deleted = false)
    (hlive : m'.deleted = false) :
    mailMoney (Keyed.put Mail.messageID mails m') + m.money = mailMoney mails + m'.money := by
  have hput := sum_put hids hm hid fun mail => if mail.deleted then 0 else mail.money
  rw [if_neg (by simp [hdeleted]), if_neg (by simp [hlive])] at hput
  exact hput

/-- An item is taken out of a mail, and its object forgotten by the mailbox. -/
def World.takenOut (w : World) (player : ℕ) (m : Mail) (guid : ℕ) (merged : Bool) : World :=
  { w.withBox player (Keyed.put Mail.messageID (w.mails player) (m.without guid),
      removeMItems (w.mItems player) [guid]) with
    history := .took m.messageID guid m.COD merged :: w.history }

section

variable (h : Sound env characters w) (hplayer : player ∈ characters)
include h hplayer

section

variable (hm : m ∈ w.mails player) (hdeleted : m.deleted = false)
include hm hdeleted

theorem total_takenOut (hguid : guid ∈ m.items) {item : Item}
    (hitem : w.getMItem player guid = some item) (merged : Bool) :
    (w.takenOut player m guid merged).total characters f + f item = w.total characters f := by
  have htotal := (@total_withBox w characters f player) hplayer
    (Keyed.put Mail.messageID (w.mails player) (m.without guid),
      removeMItems (w.mItems player) [guid])
  have htake := (@boxWeight_take f _ (w.mItems player)) (h.found player) (h.ids player)
    (h.unique_box hplayer) hm hdeleted hguid hitem
  change (w.withBox player _).total characters f + f item = _
  simp only [World.box] at htotal
  omega

theorem wealth_takenOut (merged : Bool) :
    (w.takenOut player m guid merged).wealth characters = w.wealth characters := by
  have hwealth := (@wealth_withBox w characters player) hplayer
    (Keyed.put Mail.messageID (w.mails player) (m.without guid),
      removeMItems (w.mItems player) [guid])
  have hmoney := (@mailMoney_put m _ (m.without guid)) (h.ids player) hm rfl hdeleted hdeleted
  change (w.withBox player _).wealth characters = _
  simp only [Mail.without] at hmoney hwealth ⊢
  omega

/-- **An item is taken out**: what is paid for it is what the mail owes. -/
theorem Sound.takeOut (hguid : guid ∈ m.items) {item : Item}
    (hitem : w.getMItem player guid = some item) (merged : Bool) :
    Sound env characters (w.takenOut player m guid merged) := by
  have hpaid : ∃ cod n, postedCod w.history m.messageID = some cod ∧
      paidFor (.took m.messageID guid m.COD merged :: w.history) m.messageID =
        List.replicate n 0 ++ [cod] := by
    rw [paidFor_cons_took, if_pos rfl]
    rcases h.owes player m hm with ⟨hposted, hnone⟩ | ⟨hzero, cod, n, hposted, hsome⟩
    · exact ⟨m.COD, 0, hposted, by rw [hnone]; rfl⟩
    · exact ⟨cod, n + 1, hposted, by rw [hsome, hzero]; rfl⟩
  have hother : ∀ messageID, m.messageID ≠ messageID →
      paidFor (.took m.messageID guid m.COD merged :: w.history) messageID =
        paidFor w.history messageID := fun messageID hne => by rw [paidFor_cons_took, if_neg hne]
  refine h.withBox hplayer ?_ (fun m' hm' => ?_) ?_ (fun other => ?_) (fun other m' hm' => ?_)
    (fun messageID cod hcod => ?_) fun messageID hle => ?_
  · rw [keys_put]
    exact h.ids player
  · rcases mem_put_iff.mp hm' with ⟨rfl, -⟩ | ⟨hin, -⟩
    · exact ⟨m, hm, rfl, rfl, rfl, rfl, Nat.le_refl _, Nat.zero_le _⟩
    · exact ⟨m', hin, Derives.refl m'⟩
  · exact found_take (h.found player) (h.ids player) (h.unique_box hplayer) hm hdeleted hguid
  · have htake := (@boxWeight_take (place other) _ (w.mItems player)) (h.found player) (h.ids player)
      (h.unique_box hplayer) hm hdeleted hguid hitem
    simp only [World.box]
    omega
  · have hkept : ∀ n ∈ w.mails other, n.messageID ≠ m.messageID →
        Owes (.took m.messageID guid m.COD merged :: w.history) n := by
      intro n hn hne
      rw [Owes, hother n.messageID (Ne.symm hne)]
      exact h.owes other n hn
    rcases mem_update_iff.mp hm' with ⟨rfl, hin⟩ | ⟨hne, hin⟩
    · rcases mem_put_iff.mp hin with ⟨rfl, -⟩ | ⟨hin, hne⟩
      · exact Or.inr ⟨rfl, hpaid⟩
      · exact hkept m' hin hne
    · exact hkept m' hin fun hid => hne (h.apart other player m' hin m hm hid)
  · by_cases hsame : m.messageID = messageID
    · subst hsame
      obtain ⟨posted, n, hposted, hall⟩ := hpaid
      have heq : posted = cod := Option.some.inj (hposted.symm.trans hcod)
      exact Or.inr ⟨n, heq ▸ hall⟩
    · rw [hother messageID hsame]
      exact h.codOnce messageID cod hcod
  · obtain ⟨hposted, hnone⟩ := h.unposted messageID hle
    have hlt := h.fresh player m hm
    exact ⟨hposted, (hother messageID (by omega)).trans hnone⟩

end

end

/-! ### Storing -/

variable {item : Item} {dest : List (Option ℕ × ℕ)}

/-- An item is stored in an inventory. -/
def World.stored (env : Env) (w : World) (player : ℕ) (item : Item) (dest : List (Option ℕ × ℕ)) : World :=
  { w.withInventory player (storeItem env item (w.inventory player) w.itemGuid dest).1 with
    itemGuid := (storeItem env item (w.inventory player) w.itemGuid dest).2 }

theorem places_stored (hplayer : player ∈ characters) (hdest : dest ≠ []) (guid : ℕ) :
    w.itemGuid ≤ (w.stored env player item dest).itemGuid ∧
    (w.stored env player item dest).places characters guid = w.places characters guid +
      (if w.itemGuid ≤ guid ∧ guid < (w.stored env player item dest).itemGuid then 1 else 0) +
      if merged dest = false ∧ item.guid = guid then 1 else 0 := by
  obtain ⟨hle, hguids⟩ := @guids_storeItem env (w.inventory player) item w.itemGuid dest hdest
  have htotal := (@total_withInventory w characters (place guid) player) hplayer
    (storeItem env item (w.inventory player) w.itemGuid dest).1
  rw [weigh_place, weigh_place, hguids, count_append, count_append] at htotal
  have hclones : (List.range' w.itemGuid
      ((storeItem env item (w.inventory player) w.itemGuid dest).2 - w.itemGuid)).count guid =
        if w.itemGuid ≤ guid ∧ guid < (storeItem env item (w.inventory player) w.itemGuid dest).2 then 1
        else 0 := by
    rw [List.Nodup.count nodup_range']
    refine if_congr (mem_range'_1.trans ?_) rfl rfl
    omega
  have hlast : (if merged dest then [] else [item.guid]).count guid =
      if merged dest = false ∧ item.guid = guid then 1 else 0 := by
    cases merged dest with
    | true => simp
    | false => simp [count_singleton]
  refine ⟨hle, ?_⟩
  change (w.withInventory player _).total characters (place guid) = w.total characters (place guid) +
    (if w.itemGuid ≤ guid ∧ guid < (storeItem env item (w.inventory player) w.itemGuid dest).2 then 1
      else 0) + _
  omega

/-- **An item is stored** that is in no place. -/
theorem Sound.store (h : Sound env characters w) (hplayer : player ∈ characters) (hdest : dest ≠ [])
    (hnew : w.places characters item.guid = 0) (hknown : item.guid < w.itemGuid) :
    Sound env characters (w.stored env player item dest) := by
  have hplaces := fun guid => (@places_stored env w characters player item dest) hplayer hdest guid
  refine ⟨h.purse, h.ids, h.apart, h.fresh, h.fair, h.found, fun guid => ?_, fun guid hguid => ?_, h.owes,
    h.codOnce, h.unposted, h.waiting⟩
  · obtain ⟨-, heq⟩ := hplaces guid
    rw [heq]
    have hle := h.unique guid
    by_cases hclone : w.itemGuid ≤ guid
    · have hzero := h.guids guid hclone
      split_ifs <;> omega
    · rw [if_neg (fun hin => hclone hin.1)]
      by_cases hlast : merged dest = false ∧ item.guid = guid
      · rw [if_pos hlast, ← hlast.2, hnew]
      · rw [if_neg hlast]
        omega
  · obtain ⟨hle, heq⟩ := hplaces guid
    rw [heq, h.guids guid (Nat.le_trans hle hguid), if_neg (by omega), if_neg (by omega)]

/-- The count of an entry in an inventory in which an item has been stored. -/
theorem itemCount_stored (h : Sound env characters w) (hplayer : player ∈ characters)
    (hdest : ValidDest env (w.inventory player) item dest) (entry : ℕ) :
    (w.stored env player item dest).itemCount characters entry =
      w.itemCount characters entry + amount entry item := by
  obtain ⟨hnil, hsum, -, hplaces⟩ := hdest
  have hamount := @amount_storeItem env (w.inventory player) item w.itemGuid entry dest hnil
    (h.nodup_inventory hplayer) (fun other hother => guid_lt_of_mem h hplayer hother)
    (fun place hplace => (hplaces place hplace).1) fun place hplace => (hplaces place hplace).2
  have htotal := (@total_withInventory w characters (amount entry) player) hplayer
    (storeItem env item (w.inventory player) w.itemGuid dest).1
  rw [hsum] at hamount
  change (w.withInventory player _).total characters (amount entry) = w.total characters (amount entry) + _
  rw [amount]
  omega

end IscServer.Mails
