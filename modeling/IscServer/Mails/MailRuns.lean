import IscServer.Mails.MailSound

/-!
# Runs of Mail Packets

No packet loses or doubles an item or money, whatever happens between a request to send a mail and its
continuation. A mail that no character has sent cannot go back: when it is returned it is deleted, with its
money and its items.

## Main results

* `step_conserves` — one packet.
* `mail_conserves` — all packets of a run.
* `auctionMail_dropped` — an auction mail that is returned.
-/

namespace IscServer.Mails

open List Keyed

open IscServer.Player

variable {env : Env} {w : World} {characters : Finset ℕ} {f : Item → ℕ} {items : List Item}
variable {player guid : ℕ} {m : Mail}

/-! ### What a packet may do -/

/-- The postage that was paid and the money of mails that were dropped. -/
def fees (events : List Event) : ℕ :=
  (events.map fun
    | .posted _ _ cost => cost
    | .took _ _ _ _ => 0
    | .dropped m _ => m.money).sum

/-- The items of mails that were dropped. -/
def lost (events : List Event) : List Item :=
  events.flatMap fun
    | .dropped _ items => items
    | _ => []

/-- The object of the item is gone: it has been merged into stacks, or dropped with its mail. -/
def Gone (events : List Event) (guid : ℕ) : Prop :=
  (∃ messageID paid, .took messageID guid paid true ∈ events) ∨ ∃ item ∈ lost events, item.guid = guid

/-- **Everything is accounted for**: what was noted in a step explains all that has changed. -/
structure Accounts (characters : Finset ℕ) (op : Op) (w w' : World) (events : List Event) : Prop where
  history : w'.history = events ++ w.history
  money : w'.wealth characters + fees events = w.wealth characters
  count : ∀ entry, w'.itemCount characters entry + weigh (amount entry) (lost events) =
    w.itemCount characters entry
  unique : ∀ guid, w'.places characters guid ≤ 1
  kept : ∀ guid, w.places characters guid = 1 → w'.places characters guid = 1 ∨ Gone events guid
  codOnce : ∀ messageID, CodOnce w'.history messageID
  paid : ∀ messageID guid paid merged, .took messageID guid paid merged ∈ events →
    ∃ player ∈ op.player?, ∃ m ∈ w.mails player, m.messageID = messageID ∧ guid ∈ m.items ∧
      w'.money player + paid = w.money player ∧
        (0 < paid → ∃ mail ∈ w'.mails m.sender, mail.money = paid ∧ w.mailId ≤ mail.messageID)
  dropped : ∀ m items, .dropped m items ∈ events → ¬m.FromCharacter ∧
    ∃ player canOpenMailBox senderGUID now,
      op = .returnToSender player canOpenMailBox m.messageID senderGUID now ∧ m ∈ w.mails player

/-- What characters have is the same. -/
structure SameGoods (w w' : World) : Prop where
  money : w'.money = w.money
  inventory : w'.inventory = w.inventory
  mails : w'.mails = w.mails
  mItems : w'.mItems = w.mItems

/-- **A packet conserves** items and money, and changes nothing when it is rejected. -/
structure Conserves (env : Env) (characters : Finset ℕ) (w : World) (op : Op) : Prop where
  accounts : ∃ events, Accounts characters op w (w.step env op) events
  rejected : (w.respond env op).2 ≠ some .ok → SameGoods w (w.step env op)

theorem SameGoods.refl (w : World) : SameGoods w w := ⟨rfl, rfl, rfl, rfl⟩

variable {w' : World}

theorem SameGoods.total (hsame : SameGoods w w') :
    w'.total characters f = w.total characters f := by
  have hbox : w'.box = w.box := by
    funext player
    rw [World.box, World.box, hsame.mails, hsame.mItems]
  rw [World.total, World.total, hsame.inventory, hbox]

/-- Nothing has been noted, and nothing has changed. -/
theorem SameGoods.accounts {op : Op} (hsame : SameGoods w w')
    (hhistory : w'.history = w.history) (h : Sound env characters w) : Accounts characters op w w' [] := by
  refine ⟨hhistory, ?_, fun entry => ?_, fun guid => ?_, fun guid hguid => ?_, fun messageID => ?_,
    fun _ _ _ _ hmem => (by cases hmem), fun _ _ hmem => (by cases hmem)⟩
  · rw [World.wealth, hsame.money, hsame.mails]
    rfl
  · exact hsame.total
  · rw [World.places, hsame.total]
    exact h.unique guid
  · rw [World.places, hsame.total]
    exact Or.inl hguid
  · rw [hhistory]
    exact h.codOnce messageID

/-! ### Sending -/

theorem mem_of_mapM {α β ε : Type} {g : α → Except ε β} {as : List α} {bs : List β}
    (h : as.mapM g = .ok bs) : ∀ b ∈ bs, ∃ a ∈ as, g a = .ok b := by
  induction as generalizing bs with
  | nil =>
    cases h
    exact fun _ hb => by cases hb
  | cons a as ih =>
    rw [mapM_cons] at h
    cases ha : g a with
    | error e =>
      rw [ha] at h
      cases h
    | ok b =>
      rw [ha] at h
      cases has : as.mapM g with
      | error e =>
        rw [has] at h
        cases h
      | ok rest =>
        rw [has] at h
        cases h
        refine forall_mem_cons.mpr ⟨⟨a, mem_cons_self, ha⟩, fun b hb => ?_⟩
        obtain ⟨a', ha', hg⟩ := ih has b hb
        exact ⟨a', mem_cons_of_mem _ ha', hg⟩

variable {c : Continuation}

theorem mem_of_attachment {item : Item} (h : w.attachment env c guid = .ok item) :
    item ∈ w.inventory c.player := by
  rw [World.attachment] at h
  split_ifs at h
  cases hfind : Keyed.find Item.guid (w.inventory c.player) guid with
  | none =>
    rw [hfind] at h
    cases h
  | some other =>
    rw [hfind] at h
    dsimp only at h
    split_ifs at h
    cases h
    exact mem_of_find hfind

/-- What the checks of the continuation promise. -/
theorem checkSendMail_spec {mailsCount : ℕ}
    (hplayer : Existing env characters c.player) (h : w.checkSendMail env c mailsCount = .ok items) :
    c.reqmoney ≤ w.money c.player ∧ ∀ item ∈ items, item ∈ w.inventory c.player := by
  rw [World.checkSendMail] at h
  split_ifs at h with hmoney
  rw [hplayer.noGameMaster] at hmoney
  refine ⟨by simpa using hmoney, fun item hitem => ?_⟩
  obtain ⟨guid, -, hguid⟩ := mem_of_mapM h item hitem
  exact mem_of_attachment hguid

/-- The draft that the continuation makes. -/
def draftOf (c : Continuation) (items : List Item) : MailDraft :=
  ⟨c.player, c.sendMoney, if c.attachments.isEmpty then 0 else c.cod,
    items.foldl (Keyed.assign Item.guid) []⟩

theorem postMail_eq (w : World) (c : Continuation) (items : List Item) (now : ℕ) :
    ∃ deliverTime, w.postMail env c items now =
      ((w.pay c.player c.reqmoney).withInventory c.player ((w.inventory c.player).filter fun other =>
        !(other.guid ∈ items.map Item.guid))).sendMailTo (draftOf c items) c.receiver deliverTime c.cost := by
  refine ⟨now + if !c.attachments.isEmpty && !(env.accountId c.player = env.accountId c.receiver) then
    env.mailDeliveryDelay else 0, ?_⟩
  rw [World.postMail, foldl_moveItemFromInventory, foldl_addItem]
  rfl

/-- **A mail is sent**. -/
theorem postMail_accounts {mailsCount now : ℕ} {op : Op} (h : Sound env characters w)
    (hc : Waiting env characters c) (hcheck : w.checkSendMail env c mailsCount = .ok items) :
    Sound env characters (w.postMail env c items now) ∧
      ∃ events, Accounts characters op w (w.postMail env c items now) events := by
  obtain ⟨hmoney, hitems⟩ := checkSendMail_spec hc.player hcheck
  obtain ⟨deliverTime, heq⟩ := @postMail_eq env w c items now
  have hnodup := h.nodup_inventory hc.player.mem
  have hcollected := fun f => @weigh_collected f items (w.inventory c.player) hnodup hitems
  have hmem : ∀ item ∈ (draftOf c items).items, item ∈ items := fun item hitem => by
    have hiff := (@mem_foldl_assign_iff _ _ Item.guid [] item _ items) fun a ha b hb hkey =>
      eq_of_key hnodup (hitems a ha) (hitems b hb) hkey
    exact hiff.mp hitem
  have hpay := h.pay hmoney
  generalize hrest : (w.inventory c.player).filter (fun other => !(other.guid ∈ items.map Item.guid)) =
    rest at heq hcollected
  have htaken := @Sound.withInventory _ _ _ _ hpay rest hc.player.mem fun guid => by
    have hsplit := hcollected (place guid)
    change _ ≤ weigh (place guid) (w.inventory c.player)
    omega
  have htotal : ∀ f, ((w.pay c.player c.reqmoney).withInventory c.player rest).total characters f +
      weigh f (draftOf c items).items = w.total characters f := by
    intro f
    have hsplit := hcollected f
    have hreplaced := (@total_withInventory (w.pay c.player c.reqmoney) characters f c.player)
      hc.player.mem rest
    change _ + weigh f (w.inventory c.player) = w.total characters f + _ at hreplaced
    change weigh f rest + weigh f (draftOf c items).items = _ at hsplit
    omega
  have hdraft : Postable env characters
      ((w.pay c.player c.reqmoney).withInventory c.player rest) (draftOf c items) := by
    refine ⟨hc.player, ?_, nodup_foldl_assign nodup_nil, fun item hitem => ?_,
      fun item hitem => guid_lt_of_mem h hc.player.mem (hitems item (hmem item hitem))⟩
    · have hmax := h.purse c.player hc.player.mem
      have hreq := hc.reqmoney
      change c.sendMoney ≤ _
      omega
    · have hsplit := htotal (place item.guid)
      have hpos := place_pos_of_mem hitem
      have hle := h.unique item.guid
      simp only [World.places] at hle ⊢
      omega
  have hsound := @Sound.post _ _ _ _ _ deliverTime c.cost htaken hc.receiver.mem hdraft
  have hafter : ∀ f, (w.postMail env c items now).total characters f = w.total characters f := by
    intro f
    rw [heq, total_post htaken hc.receiver.mem hdraft, htotal f]
  rw [← heq] at hsound
  refine ⟨hsound, [.posted w.mailId (draftOf c items).COD c.cost], by rw [heq]; rfl, ?_, fun entry => ?_,
    hsound.unique, fun guid hguid => ?_, hsound.codOnce, fun _ _ _ _ hin => ?_, fun _ _ hin => ?_⟩
  · have hpaid := wealth_pay hc.player.mem hmoney (h.purse c.player hc.player.mem)
    have hposted := (@wealth_post ((w.pay c.player c.reqmoney).withInventory c.player rest) characters
      (draftOf c items) c.receiver deliverTime c.cost) hc.receiver.mem
    have hreq := hc.reqmoney
    rw [heq, hposted]
    change (w.pay c.player c.reqmoney).wealth characters + c.sendMoney + c.cost = _
    omega
  · exact hafter (amount entry)
  · refine Or.inl ?_
    rw [World.places, hafter]
    exact hguid
  · cases mem_singleton.mp hin
  · cases mem_singleton.mp hin

/-! ### Taking money -/

/-- **The money of a mail is taken**. -/
theorem handleMailTakeMoney_accounts {mailID money : ℕ} {op : Op} (h : Sound env characters w)
    (hplayer : player ∈ characters) (hm : w.getMail player mailID = some m)
    (hdeleted : m.deleted = false)
    (htake : tryModifyMoney (w.money player) (int32 m.money) = some money) :
    let w' : World := { w.putMail player { m with money := 0 } with
      money := Function.update w.money player money }
    Sound env characters w' ∧ Accounts characters op w w' [] := by
  intro w'
  have hmem := mem_of_find hm
  obtain ⟨hsum, hmax⟩ := tryModifyMoney_pos (h.fair player m hmem).money (h.purse player hplayer) htake
  have hput := h.takeMoney hplayer hmem
  have hsound : Sound env characters w' := by
    refine { hput with purse := fun other hother => ?_ }
    by_cases hsame : other = player
    · subst hsame
      exact (congrArg (· ≤ maxMoneyAmount) (Function.update_self other money w.money)).mpr hmax
    · exact (congrArg (· ≤ maxMoneyAmount) (Function.update_of_ne hsame money w.money)).mpr
        (h.purse other hother)
  have htotal : ∀ f, w'.total characters f = w.total characters f :=
    fun f => total_takeMoney h hplayer hmem
  refine ⟨hsound, rfl, ?_, fun entry => htotal (amount entry), hsound.unique, fun guid hguid => ?_,
    hsound.codOnce, fun _ _ _ _ hin => (by cases hin), fun _ _ hin => (by cases hin)⟩
  · have hpurse := Tally.tally_update hplayer id w.money money
    have hmails := Tally.tally_update hplayer mailMoney w.mails
      (Keyed.put Mail.messageID (w.mails player) { m with money := 0 })
    have hmoney := (@mailMoney_put m (w.mails player) { m with money := 0 }) (h.ids player) hmem rfl
      hdeleted hdeleted
    change Tally.tally characters id (Function.update w.money player money) +
      Tally.tally characters mailMoney (Function.update w.mails player
        (Keyed.put Mail.messageID (w.mails player) { m with money := 0 })) + 0 = _
    rw [World.wealth]
    simp only [id_eq] at hpurse hmoney
    omega
  · refine Or.inl ?_
    rw [World.places, htotal]
    exact hguid

/-! ### Returning -/

/-- The guids of attachments are distinct, and known. -/
theorem attached_spec (h : Sound env characters w) (hplayer : player ∈ characters)
    (hm : m ∈ w.mails player) (hdeleted : m.deleted = false) :
    ((attached (w.mItems player) m).map Item.guid).Nodup ∧
      ∀ item ∈ attached (w.mItems player) m, item.guid < w.itemGuid := by
  have hsplit := fun guid => (@total_without env w characters (place guid) player m) h hplayer hm hdeleted
    (Or.inl rfl)
  constructor
  · refine nodup_of_place fun guid => ?_
    have hle := h.unique guid
    have heq := hsplit guid
    rw [World.places] at hle
    omega
  · intro item hitem
    by_contra hge
    have hzero := h.guids item.guid (Nat.le_of_not_lt hge)
    have hpos := place_pos_of_mem hitem
    have heq := hsplit item.guid
    rw [World.places] at hzero
    omega

/-- **A mail of a character goes back** with all that it holds. -/
theorem returned_accounts {senderAcc now : ℕ} {op : Op} (h : Sound env characters w)
    (hplayer : Existing env characters player) (hm : m ∈ w.mails player) (hdeleted : m.deleted = false)
    (hfrom : m.FromCharacter) :
    let w' := (w.without player m (removeMItems (w.mItems player) m.items)).sendReturnToSender env
      ⟨m.receiver, m.money, 0, attached (w.mItems player) m⟩ senderAcc m.sender now
    Sound env characters w' ∧ ∃ events, Accounts characters op w w' events := by
  intro w'
  have hfair := h.fair player m hm
  have hsender := hfair.sender (Or.inl hfrom)
  obtain ⟨hnodup, hknown⟩ := attached_spec h hplayer.mem hm hdeleted
  have hrest := h.remove hplayer.mem hm hdeleted (Or.inr rfl)
  have hsplit := fun f => (@total_without env w characters f player m) h hplayer.mem hm hdeleted
    (Or.inr rfl)
  obtain ⟨deliverTime, heq⟩ : ∃ deliverTime, w' =
      (w.without player m (removeMItems (w.mItems player) m.items)).sendMailTo
        ⟨m.receiver, m.money, 0, attached (w.mItems player) m⟩ m.sender deliverTime 0 :=
    ⟨_, if_neg (by simp [hsender.account])⟩
  have hdraft : Postable env characters (w.without player m (removeMItems (w.mItems player) m.items))
      ⟨m.receiver, m.money, 0, attached (w.mItems player) m⟩ := by
    refine ⟨hfair.receiver.symm ▸ hplayer, hfair.money, hnodup, fun item hitem => ?_, hknown⟩
    have hle := h.unique item.guid
    have hpos : 0 < weigh (place item.guid) (attached (w.mItems player) m) := place_pos_of_mem hitem
    have hguid := hsplit (place item.guid)
    rw [World.places] at hle ⊢
    omega
  have hsound := @Sound.post _ _ _ _ _ deliverTime 0 hrest hsender.mem hdraft
  have htotal : ∀ f, w'.total characters f = w.total characters f := by
    intro f
    rw [heq, total_post hrest hsender.mem hdraft, hsplit f]
  rw [← heq] at hsound
  refine ⟨hsound, [.posted w.mailId 0 0], by rw [heq]; rfl, ?_, fun entry => htotal (amount entry),
    hsound.unique, fun guid hguid => ?_, hsound.codOnce, fun _ _ _ _ hin => ?_, fun _ _ hin => ?_⟩
  · have hwealth := wealth_without h hplayer.mem hm hdeleted (removeMItems (w.mItems player) m.items)
    rw [heq, wealth_post hsender.mem]
    exact hwealth
  · refine Or.inl ?_
    rw [World.places, htotal]
    exact hguid
  · cases mem_singleton.mp hin
  · cases mem_singleton.mp hin

variable {canOpenMailBox : Bool}

/-- **Another mail is dropped** with all that it holds. -/
theorem dropped_accounts {senderGUID now : ℕ} (h : Sound env characters w)
    (hplayer : player ∈ characters) (hm : m ∈ w.mails player) (hdeleted : m.deleted = false)
    (hfrom : ¬m.FromCharacter) :
    let w' : World := { w.without player m (w.mItems player) with
      history := .dropped m (attached (w.mItems player) m) :: w.history }
    Sound env characters w' ∧ ∃ events,
      Accounts characters (.returnToSender player canOpenMailBox m.messageID senderGUID now) w w' events := by
  intro w'
  have hrest := h.remove hplayer hm hdeleted (Or.inl rfl)
  have hsplit : ∀ f, w'.total characters f + weigh f (attached (w.mItems player) m) =
      w.total characters f := fun f => total_without h hplayer hm hdeleted (Or.inl rfl)
  have hsound : Sound env characters w' :=
    ⟨hrest.purse, hrest.ids, hrest.apart, hrest.fresh, hrest.fair, hrest.found, hrest.unique, hrest.guids,
      hrest.owes, hrest.codOnce, hrest.unposted, hrest.waiting⟩
  have hlost : lost [.dropped m (attached (w.mItems player) m)] = attached (w.mItems player) m :=
    append_nil _
  refine ⟨hsound, [.dropped m (attached (w.mItems player) m)], rfl, ?_, fun entry => ?_, hsound.unique,
    fun guid hguid => ?_, hsound.codOnce, fun _ _ _ _ hin => ?_, fun _ _ hin => ?_⟩
  · exact wealth_without h hplayer hm hdeleted (w.mItems player)
  · rw [hlost]
    exact hsplit (amount entry)
  · have hguids := hsplit (place guid)
    rw [weigh_place] at hguids
    by_cases hin : guid ∈ (attached (w.mItems player) m).map Item.guid
    · obtain ⟨item, hitem, hkey⟩ := mem_map.mp hin
      exact Or.inr (Or.inr ⟨item, hlost.symm ▸ hitem, hkey⟩)
    · rw [count_eq_zero_of_not_mem hin] at hguids
      exact Or.inl (hguids.trans hguid)
  · cases mem_singleton.mp hin
  · cases mem_singleton.mp hin
    exact ⟨hfrom, player, canOpenMailBox, senderGUID, now, rfl, hm⟩

/-! ### Taking items -/

/-- What paying the COD leaves. -/
structure PaysCOD (env : Env) (characters : Finset ℕ) (player : ℕ) (m : Mail) (w w' : World) : Prop where
  sound : Sound env characters w'
  total : ∀ f, w'.total characters f = w.total characters f
  wealth : w'.wealth characters = w.wealth characters
  inventory : w'.inventory = w.inventory
  mItems : w'.mItems player = w.mItems player
  itemGuid : w'.itemGuid = w.itemGuid
  mails : m ∈ w'.mails player
  purse : w'.money player + m.COD = w.money player
  history : ∃ events, w'.history = events ++ w.history ∧
    ∀ event ∈ events, ∃ messageID, event = .posted messageID 0 0
  payment : 0 < m.COD → ∃ mail ∈ w'.mails m.sender, mail.money = m.COD ∧ w.mailId ≤ mail.messageID

/-- **The COD is paid** to the sender of the mail. -/
theorem payCOD_spec {now : ℕ} (h : Sound env characters w) (hplayer : Existing env characters player)
    (hm : m ∈ w.mails player) (hle : m.COD ≤ w.money player) :
    PaysCOD env characters player m w (w.payCOD env player m now) := by
  by_cases hcod : 0 < m.COD
  · have hfair := h.fair player m hm
    have hsender := hfair.sender (Or.inr hcod)
    have hmax := h.purse player hplayer.mem
    have heq : w.payCOD env player m now =
        (w.sendMailTo ⟨m.receiver, m.COD, 0, []⟩ m.sender now 0).pay player m.COD := by
      rw [World.payCOD, if_pos hcod]
      exact congrArg (fun w' => World.pay w' player m.COD) (if_pos (by simp [hsender.account]))
    have hdraft : Postable env characters w ⟨m.receiver, m.COD, 0, []⟩ :=
      ⟨hfair.receiver.symm ▸ hplayer, Nat.le_trans hle hmax, nodup_nil,
        fun _ hin => (by cases hin), fun _ hin => (by cases hin)⟩
    have hpost := (@Sound.post env w characters ⟨m.receiver, m.COD, 0, []⟩ m.sender now 0) h hsender.mem
      hdraft
    have htotal := fun f => (@total_post env w characters f ⟨m.receiver, m.COD, 0, []⟩ m.sender now 0) h
      hsender.mem hdraft
    have hwealth := (@wealth_post w characters ⟨m.receiver, m.COD, 0, []⟩ m.sender now 0) hsender.mem
    have hmails : (w.sendMailTo ⟨m.receiver, m.COD, 0, []⟩ m.sender now 0).mails =
        Function.update w.mails m.sender
          (w.newMail ⟨m.receiver, m.COD, 0, []⟩ m.sender now :: w.mails m.sender) := rfl
    have hmItems : (w.sendMailTo ⟨m.receiver, m.COD, 0, []⟩ m.sender now 0).mItems = w.mItems :=
      Function.update_eq_self m.sender w.mItems
    have hhistory : (w.sendMailTo ⟨m.receiver, m.COD, 0, []⟩ m.sender now 0).history =
        .posted w.mailId 0 0 :: w.history := rfl
    have hmoney : (w.sendMailTo ⟨m.receiver, m.COD, 0, []⟩ m.sender now 0).money = w.money := rfl
    have hinventory : (w.sendMailTo ⟨m.receiver, m.COD, 0, []⟩ m.sender now 0).inventory = w.inventory :=
      rfl
    have hitemGuid : (w.sendMailTo ⟨m.receiver, m.COD, 0, []⟩ m.sender now 0).itemGuid = w.itemGuid :=
      rfl
    rw [heq]
    obtain ⟨w₁, hw₁⟩ : ∃ w₁, w.sendMailTo ⟨m.receiver, m.COD, 0, []⟩ m.sender now 0 = w₁ := ⟨_, rfl⟩
    rw [hw₁] at hpost htotal hwealth hmails hmItems hhistory hmoney hinventory hitemGuid ⊢
    have hpaid := (@wealth_pay w₁ characters player m.COD) hplayer.mem (hmoney ▸ hle) (hmoney ▸ hmax)
    dsimp only at hwealth
    refine ⟨hpost.pay (hmoney ▸ hle), htotal, by omega, hinventory, congrFun hmItems player, hitemGuid, ?_,
      ?_, ⟨[.posted w.mailId 0 0], hhistory, fun event hin => ⟨w.mailId, mem_singleton.mp hin⟩⟩,
      fun _ => ⟨w.newMail ⟨m.receiver, m.COD, 0, []⟩ m.sender now, ?_, rfl, Nat.le_refl _⟩⟩
    · change m ∈ w₁.mails player
      rw [hmails]
      by_cases hsame : player = m.sender
      · exact mem_update_iff.mpr (Or.inl ⟨hsame, mem_cons_of_mem _ (hsame ▸ hm)⟩)
      · exact mem_update_iff.mpr (Or.inr ⟨hsame, hm⟩)
    · simp only [World.pay, hmoney, Function.update_self, modifyMoney_neg hle hmax]
      omega
    · change _ ∈ w₁.mails m.sender
      rw [hmails]
      exact mem_update_iff.mpr (Or.inl ⟨rfl, mem_cons_self⟩)
  · rw [World.payCOD, if_neg hcod]
    exact ⟨h, fun _ => rfl, rfl, rfl, rfl, rfl, hm, by omega, ⟨[], rfl, fun _ hin => by cases hin⟩,
      fun hpos => absurd hpos hcod⟩

theorem fees_posted {events : List Event}
    (h : ∀ event ∈ events, ∃ messageID, event = .posted messageID 0 0) :
    fees events = 0 ∧ lost events = [] := by
  induction events with
  | nil => exact ⟨rfl, rfl⟩
  | cons event events ih =>
    obtain ⟨⟨messageID, rfl⟩, hrest⟩ := forall_mem_cons.mp h
    obtain ⟨hfees, hlost⟩ := ih hrest
    exact ⟨(Nat.zero_add _).trans hfees, hlost⟩

/-- **An item is taken**, once the COD has been paid. -/
theorem takenItem_accounts {w₁ : World} {attachID : ℕ} {item : Item} {dest : List (Option ℕ × ℕ)}
    {op : Op} (hop : op.player? = some player) (h : Sound env characters w)
    (hplayer : Existing env characters player) (hpays : PaysCOD env characters player m w w₁)
    (hm : m ∈ w.mails player) (hdeleted : m.deleted = false) (hguid : attachID ∈ m.items)
    (hitem : w.getMItem player attachID = some item)
    (hdest : ValidDest env (w.inventory player) item dest) :
    Sound env characters ((w₁.takenOut player m attachID (merged dest)).stored env player item dest) ∧
      ∃ events, Accounts characters op w
        ((w₁.takenOut player m attachID (merged dest)).stored env player item dest) events := by
  have hkey := key_of_find hitem
  have hitem₁ : w₁.getMItem player attachID = some item := by
    rw [World.getMItem, hpays.mItems]
    exact hitem
  have hout := hpays.sound.takeOut hplayer.mem hpays.mails hdeleted hguid hitem₁ (merged dest)
  have hsplit := fun f => (@total_takenOut env w₁ characters f player attachID m) hpays.sound hplayer.mem
    hpays.mails hdeleted hguid hitem₁ (merged dest)
  have hmoney := (@wealth_takenOut env w₁ characters player attachID m) hpays.sound hplayer.mem hpays.mails
    hdeleted (merged dest)
  obtain ⟨w₂, hw₂⟩ : ∃ w₂, w₁.takenOut player m attachID (merged dest) = w₂ := ⟨_, rfl⟩
  have hinventory : w₂.inventory = w.inventory := hw₂ ▸ hpays.inventory
  have hitemGuid : w₂.itemGuid = w.itemGuid := hw₂ ▸ hpays.itemGuid
  have hpurse : w₂.money player + m.COD = w.money player := hw₂ ▸ hpays.purse
  have hnoted : w₂.history = .took m.messageID attachID m.COD (merged dest) :: w₁.history := by
    rw [← hw₂]
    rfl
  have hmails : w₂.mails = Function.update w₁.mails player
      (Keyed.put Mail.messageID (w₁.mails player) (m.without attachID)) := by
    rw [← hw₂]
    rfl
  rw [hw₂] at hout hsplit hmoney ⊢
  have hhere : w₂.places characters item.guid = 0 := by
    have hle := hpays.sound.unique item.guid
    have heq := hsplit (place item.guid)
    rw [place, if_pos rfl] at heq
    rw [World.places] at hle ⊢
    omega
  have hknown : item.guid < w.itemGuid := by
    by_contra hge
    have hzero := h.guids item.guid (Nat.le_of_not_lt hge)
    have heq := hsplit (place item.guid)
    rw [hpays.total, place, if_pos rfl] at heq
    rw [World.places] at hzero
    omega
  have hsound := hout.store hplayer.mem hdest.1 hhere (hitemGuid.symm ▸ hknown)
  obtain ⟨events, hhistory, hposted⟩ := hpays.history
  obtain ⟨hfees, hlost⟩ := fees_posted hposted
  refine ⟨hsound, .took m.messageID attachID m.COD (merged dest) :: events, ?_, ?_, fun entry => ?_,
    hsound.unique, fun guid hplace => ?_, hsound.codOnce, fun messageID guid paid gone hin => ?_,
    fun _ _ hin => ?_⟩
  · change w₂.history = _
    rw [hnoted, hhistory]
    rfl
  · change w₂.wealth characters + (0 + fees events) = _
    rw [hmoney, hpays.wealth, hfees, Nat.zero_add, Nat.add_zero]
  · have hcount := itemCount_stored hout hplayer.mem (hinventory.symm ▸ hdest) entry
    have heq := hsplit (amount entry)
    rw [hpays.total] at heq
    change (w₂.stored env player item dest).itemCount characters entry +
      weigh (amount entry) (lost events) = _
    rw [hcount, hlost]
    exact heq
  · obtain ⟨-, hstored⟩ := (@places_stored env w₂ characters player item dest) hplayer.mem hdest.1 guid
    have hsame := hsplit (place guid)
    rw [hpays.total, place] at hsame
    have hlt : guid < w.itemGuid := by
      by_contra hge
      have hzero := h.guids guid (Nat.le_of_not_lt hge)
      omega
    rw [hitemGuid, if_neg (fun hin => absurd hlt (Nat.not_lt_of_le hin.1))] at hstored
    by_cases hthis : item.guid = guid
    · cases hmerged : merged dest with
      | true =>
        refine Or.inr (Or.inl ⟨m.messageID, m.COD, ?_⟩)
        rw [← hthis, hkey]
        exact mem_cons_self
      | false =>
        refine Or.inl (hstored.trans ?_)
        rw [if_pos ⟨hmerged, hthis⟩, ← hthis, hhere]
    · refine Or.inl (hstored.trans ?_)
      rw [if_neg (fun hin => hthis hin.2)]
      rw [if_neg hthis] at hsame
      exact hsame.trans hplace
  · rcases mem_cons.mp hin with heq | hin
    · cases heq
      refine ⟨player, hop, m, hm, rfl, hguid, hpurse, fun hpos => ?_⟩
      obtain ⟨mail, hmail, hpaid, hid⟩ := hpays.payment hpos
      refine ⟨mail, ?_, hpaid, hid⟩
      change mail ∈ w₂.mails m.sender
      have hlt := h.fresh player m hm
      rw [hmails]
      refine mem_update_iff.mpr ?_
      by_cases hsender : m.sender = player
      · refine Or.inl ⟨hsender, mem_put_iff.mpr (Or.inr ⟨hsender ▸ hmail, ?_⟩)⟩
        simp only [Mail.without]
        omega
      · exact Or.inr ⟨hsender, hmail⟩
    · obtain ⟨messageID, heq⟩ := hposted _ hin
      cases heq
  · rcases mem_cons.mp hin with heq | hin
    · cases heq
    · obtain ⟨messageID, heq⟩ := hposted _ hin
      cases heq

/-! ### One packet -/

/-- The waiting continuations change, and who is connected. -/
theorem Sound.withSessions (h : Sound env characters w) {session : ℕ → Option ℕ} {logins : ℕ}
    {pending : List Continuation} (hpending : ∀ c ∈ pending, Waiting env characters c) :
    Sound env characters { w with session := session, logins := logins, pending := pending } :=
  ⟨h.purse, h.ids, h.apart, h.fresh, h.fair, h.found, h.unique, h.guids, h.owes, h.codOnce, h.unposted,
    hpending⟩

/-- What is to be shown of a packet and its answer. -/
def Right (env : Env) (characters : Finset ℕ) (w : World) (op : Op)
    (answer : World × Option MailResponseResult) : Prop :=
  Sound env characters answer.1 ∧ (∃ events, Accounts characters op w answer.1 events) ∧
    (answer.2 ≠ some .ok → SameGoods w answer.1)

variable {result : Option MailResponseResult}

/-- A packet that is rejected. -/
theorem right_of_same {op : Op} (h : Sound env characters w) (hsound : Sound env characters w')
    (hsame : SameGoods w w') (hhistory : w'.history = w.history) : Right env characters w op (w', result) :=
  ⟨hsound, ⟨[], hsame.accounts hhistory h⟩, fun _ => hsame⟩

theorem right_refl {op : Op} (h : Sound env characters w) : Right env characters w op (w, result) :=
  right_of_same h h (SameGoods.refl w) rfl

/-- A packet that is accepted. -/
theorem right_of_accounts {op : Op}
    (h : Sound env characters w' ∧ ∃ events, Accounts characters op w w' events) :
    Right env characters w op (w', some .ok) :=
  ⟨h.1, h.2, fun hne => absurd rfl hne⟩

theorem right_ite {op : Op} {p : Prop} [Decidable p] {one other : World × Option MailResponseResult}
    (hone : p → Right env characters w op one) (hother : ¬p → Right env characters w op other) :
    Right env characters w op (if p then one else other) := by
  by_cases hp : p
  · rw [if_pos hp]
    exact hone hp
  · rw [if_neg hp]
    exact hother hp

theorem continuation_right {mailsCount now : ℕ} {op : Op}
    (h : Sound env characters w) (hc : Waiting env characters c) :
    Right env characters w op (w.mailCountCheckContinuation env c mailsCount now) := by
  rw [World.mailCountCheckContinuation]
  split_ifs
  · exact right_refl h
  · cases hcheck : w.checkSendMail env c mailsCount with
    | error result => exact right_refl h
    | ok items => exact right_of_accounts (postMail_accounts h hc hcheck)

/-- The names that a client can write. -/
def NamesExist (env : Env) (characters : Finset ℕ) : Prop :=
  ∀ name, env.characterGuidByName name = 0 ∨ Existing env characters (env.characterGuidByName name)

/-- The sum has not wrapped. -/
theorem reqmoney_eq {cost : ℕ} {sendMoney : ℤ} (hcost : cost ≤ 360) (hmoney : ¬sendMoney < 0)
    (h : ¬((cost : ℤ) + sendMoney).bmod (2 ^ 32) < sendMoney) :
    ((cost : ℤ) + sendMoney).bmod (2 ^ 32) = cost + sendMoney := by
  rw [Int.bmod_def] at h ⊢
  split_ifs at h ⊢ <;> omega

/-- **A request to send a mail**. -/
theorem handleSendMail_right {login now : ℕ} {packet : SendMail} {op : Op}
    (hnames : NamesExist env characters) (h : Sound env characters w)
    (hplayer : Existing env characters player) :
    Right env characters w op (w.handleSendMail env player login canOpenMailBox packet now) := by
  refine right_ite (fun _ => right_refl h) fun hmany => right_ite (fun _ => right_refl h) fun _ =>
    right_ite (fun _ => right_refl h) fun _ => right_ite (fun _ => right_refl h) fun _ => ?_
  have hcost : (if packet.attachments.isEmpty = true then 30 else 30 * packet.attachments.length) ≤ 360 := by
    rw [maxMailItems] at hmany
    split_ifs <;> omega
  generalize (if packet.attachments.isEmpty = true then 30 else 30 * packet.attachments.length) = cost
    at hcost ⊢
  refine right_ite (fun _ => right_refl h) fun hzero => right_ite (fun _ => right_refl h) fun hmoney =>
    right_ite (fun _ => right_refl h) fun _ => right_ite (fun _ => right_refl h) fun _ =>
    right_ite (fun _ => right_refl h) fun hwraps => ?_
  have hc : Waiting env characters ⟨player, login, env.characterGuidByName packet.target,
      packet.attachments, packet.sendMoney.toNat, packet.cod.toNat,
      (((cost : ℤ) + packet.sendMoney).bmod (2 ^ 32)).toNat, cost⟩ := by
    refine ⟨hplayer, (hnames packet.target).resolve_left hzero, ?_⟩
    dsimp only
    rw [reqmoney_eq hcost hmoney hwraps]
    omega
  refine right_ite (fun _ => continuation_right h hc) fun _ => ?_
  refine right_of_same h (h.withSessions fun c hin => ?_) ⟨rfl, rfl, rfl, rfl⟩ rfl
  rcases mem_append.mp hin with hin | hin
  · exact h.waiting c hin
  · rw [mem_singleton.mp hin]
    exact hc

/-- **The end of a query** for a mail count. -/
theorem mailCountResult_right {index mailsCount now : ℕ} {op : Op} (h : Sound env characters w) :
    Right env characters w op (w.mailCountResult env index mailsCount now) := by
  rw [World.mailCountResult]
  cases hfound : w.pending[index]? with
  | none => exact right_refl h
  | some c =>
    have hc := h.waiting c (mem_of_getElem? hfound)
    have hrest := (@Sound.withSessions env w characters h w.session w.logins (w.pending.eraseIdx index))
      fun c hin => h.waiting c (mem_of_mem_eraseIdx hin)
    refine right_ite (fun _ => right_of_same h hrest ⟨rfl, rfl, rfl, rfl⟩ rfl) fun _ => ?_
    -- nothing that has been noted or that a character has depends on what is pending
    obtain ⟨hsound, ⟨events, haccounts⟩, hrejected⟩ :=
      (@continuation_right env _ characters c mailsCount now op) hrest hc
    exact ⟨hsound, ⟨events, haccounts.history, haccounts.money, haccounts.count, haccounts.unique,
      haccounts.kept, haccounts.codOnce, haccounts.paid, haccounts.dropped⟩,
      fun hne => ⟨(hrejected hne).money, (hrejected hne).inventory, (hrejected hne).mails,
        (hrejected hne).mItems⟩⟩

/-- **A packet that takes money**. -/
theorem handleMailTakeMoney_right {mailID now : ℕ} {op : Op}
    (h : Sound env characters w) (hplayer : player ∈ characters) :
    Right env characters w op (w.handleMailTakeMoney player canOpenMailBox mailID now) := by
  refine right_ite (fun _ => right_refl h) fun _ => ?_
  cases hm : w.getMail player mailID with
  | none => exact right_refl h
  | some m =>
    refine right_ite (fun _ => right_refl h) fun hgate => ?_
    have hdeleted : m.deleted = false := by
      simp only [Bool.or_eq_true, not_or, Bool.not_eq_true] at hgate
      exact hgate.1
    cases htake : tryModifyMoney (w.money player) (int32 m.money) with
    | none => exact right_refl h
    | some money =>
      obtain ⟨hsound, haccounts⟩ := handleMailTakeMoney_accounts h hplayer hm hdeleted htake
      exact right_of_accounts ⟨hsound, [], haccounts⟩

/-- **A packet that takes an item**. -/
theorem handleMailTakeItem_right {mailID attachID now : ℕ}
    {canStoreItem : Option (List (Option ℕ × ℕ))} {op : Op} (hop : op.player? = some player)
    (h : Sound env characters w) (hplayer : Existing env characters player) :
    Right env characters w op
      (w.handleMailTakeItem env player canOpenMailBox mailID attachID now canStoreItem) := by
  refine right_ite (fun _ => right_refl h) fun _ => ?_
  cases hm : w.getMail player mailID with
  | none => exact right_refl h
  | some m =>
    refine right_ite (fun _ => right_refl h) fun hgate => right_ite (fun _ => right_refl h) fun hguid =>
      right_ite (fun _ => right_refl h) fun hmoney => ?_
    have hdeleted : m.deleted = false := by
      simp only [Bool.or_eq_true, not_or, Bool.not_eq_true] at hgate
      exact hgate.1
    cases hitem : w.getMItem player attachID with
    | none => exact right_refl h
    | some item =>
      cases canStoreItem with
      | none => exact right_refl h
      | some dest =>
        refine right_ite (fun hdest => ?_) fun _ => right_refl h
        have hmem := mem_of_find hm
        have hpays := (@payCOD_spec env w characters player m now) h hplayer hmem
          (Nat.le_of_not_lt hmoney)
        have htaken := (@takenItem_accounts env w characters player m (w.payCOD env player m now)
          attachID item dest op) hop h hplayer hpays hmem hdeleted (not_not.mp hguid) hitem hdest
        have heq : (((w.payCOD env player m now).takenOut player m attachID
            (merged dest)).stored env player item dest) = { w.payCOD env player m now with
              mails := Function.update (w.payCOD env player m now).mails player
                (Keyed.put Mail.messageID ((w.payCOD env player m now).mails player)
                  (m.without attachID))
              mItems := Function.update (w.payCOD env player m now).mItems player
                (removeMItems ((w.payCOD env player m now).mItems player) [attachID])
              inventory := Function.update (w.payCOD env player m now).inventory player
                (storeItem env item ((w.payCOD env player m now).inventory player)
                  (w.payCOD env player m now).itemGuid dest).1
              itemGuid := (storeItem env item ((w.payCOD env player m now).inventory player)
                  (w.payCOD env player m now).itemGuid dest).2
              history := .took m.messageID attachID m.COD (merged dest) ::
                (w.payCOD env player m now).history } := rfl
        rw [heq, key_of_find hm] at htaken
        exact right_of_accounts htaken

/-- **A packet that returns a mail**. -/
theorem handleMailReturnToSender_right {mailID senderGUID now : ℕ}
    (h : Sound env characters w) (hplayer : Existing env characters player) :
    Right env characters w (.returnToSender player canOpenMailBox mailID senderGUID now)
      (w.handleMailReturnToSender env player canOpenMailBox mailID senderGUID now) := by
  refine right_ite (fun _ => right_refl h) fun _ => ?_
  cases hm : w.getMail player mailID with
  | none => exact right_refl h
  | some m =>
    dsimp only
    refine right_ite (fun _ => right_refl h) fun hgate => ?_
    have hmem := mem_of_find hm
    have hkey := key_of_find hm
    have hdeleted : m.deleted = false := by
      simp only [Bool.or_eq_true, not_or, Bool.not_eq_true] at hgate
      exact hgate.1.1
    refine right_ite (fun hfrom => ?_) fun hfrom => ?_
    · have hfrom' : m.FromCharacter := by
        simpa [Mail.FromCharacter] using hfrom
      have hreturned := (@returned_accounts env w characters player m (env.accountId player) now
        (.returnToSender player canOpenMailBox mailID senderGUID now)) h hplayer hmem hdeleted hfrom'
      have hdraft : (m.items.filterMap (w.getMItem player)).foldl MailDraft.addItem
          ⟨m.receiver, m.money, 0, []⟩ = ⟨m.receiver, m.money, 0, attached (w.mItems player) m⟩ := by
        rw [foldl_addItem]
        exact congrArg (MailDraft.mk m.receiver m.money 0)
          (foldl_assign_of_nodup (attached_spec h hplayer.mem hmem hdeleted).1)
      have hitems : m.items.filterMap ((w.removeMail player mailID).getMItem player) =
          m.items.filterMap (w.getMItem player) := rfl
      rw [hitems, hdraft]
      rw [World.without, hkey] at hreturned
      exact right_of_accounts hreturned
    · have hfrom' : ¬m.FromCharacter := by
        simpa [Mail.FromCharacter] using hfrom
      have hdropped := (@dropped_accounts env w characters player m canOpenMailBox senderGUID now) h
        hplayer.mem hmem hdeleted hfrom'
      rw [World.without, hkey] at hdropped
      have hsame : { w.removeMail player mailID with
          history := .dropped m (m.items.filterMap (w.getMItem player)) :: w.history } =
            { w.withBox player ((w.mails player).filter fun mail => !(mail.messageID = mailID),
                w.mItems player) with
              history := .dropped m (attached (w.mItems player) m) :: w.history } := by
        simp only [World.withBox, Function.update_eq_self]
        rfl
      exact right_of_accounts (hsame ▸ hdropped)

/-! ### Runs -/

section

variable (hnames : NamesExist env characters) (h : Sound env characters w) {op : Op}
  (hop : ∀ player ∈ op.player?, Existing env characters player)
include hnames h hop

/-- One packet, or the end of a query, a login or a logout. -/
theorem respond_right : Right env characters w op (w.respond env op) := by
  cases op with
  | sendMail player canOpenMailBox packet now =>
    rw [World.respond]
    cases w.session player with
    | none => exact right_refl h
    | some login => exact handleSendMail_right hnames h (hop player rfl)
  | mailCountResult index mailsCount now => exact mailCountResult_right h
  | takeItem player canOpenMailBox mailID attachID now canStoreItem =>
    exact right_ite (fun _ => right_refl h) fun _ =>
      handleMailTakeItem_right rfl h (hop player rfl)
  | takeMoney player canOpenMailBox mailID now =>
    exact right_ite (fun _ => right_refl h) fun _ => handleMailTakeMoney_right h (hop player rfl).mem
  | returnToSender player canOpenMailBox mailID senderGUID now =>
    exact right_ite (fun _ => right_refl h) fun _ =>
      handleMailReturnToSender_right h (hop player rfl)
  | login player => exact right_of_same h (h.withSessions h.waiting) ⟨rfl, rfl, rfl, rfl⟩ rfl
  | logout player => exact right_of_same h (h.withSessions h.waiting) ⟨rfl, rfl, rfl, rfl⟩ rfl

/-- **One step** conserves and keeps the invariant. -/
theorem step_conserves : Sound env characters (w.step env op) ∧ Conserves env characters w op := by
  obtain ⟨hsound, haccounts, hrejected⟩ := respond_right hnames h hop
  exact ⟨hsound, haccounts, hrejected⟩

end

/-- **Mail conserves items and money** in every run: money goes only by postage and with mails that no
character has sent and that are returned, an item stays in one place until it is merged or such a mail is
dropped, a COD is paid once, with the first item, and a rejected packet changes nothing. -/
theorem mail_conserves (env : Env) (characters : Finset ℕ) (hnames : NamesExist env characters) (w : World)
    (h : Sound env characters w) (ops : List Op)
    (hops : ∀ op ∈ ops, ∀ player ∈ op.player?, Existing env characters player) :
    Run.Along (World.step env) (Conserves env characters) w ops := by
  refine Run.Along.imp_of_invariant (Sound env characters) (fun w op h hop => ?_) (fun w op h hop => ?_) h
    ((Run.along_of_forall_mem (fun _ _ hop => hop) hops :
      Run.Along (World.step env) (fun _ op => ∀ player ∈ op.player?, Existing env characters player) w ops))
  · exact (step_conserves hnames h hop).1
  · exact (step_conserves hnames h hop).2

/-- Characters without mails are sound. -/
theorem sound_start {money : ℕ → ℕ} {inventory : ℕ → List Item} {itemGuid : ℕ}
    (hmoney : ∀ player ∈ characters, money player ≤ maxMoneyAmount)
    (hunique : ∀ guid, Tally.tally characters (weigh (place guid)) inventory ≤ 1)
    (hguids : ∀ guid, itemGuid ≤ guid → Tally.tally characters (weigh (place guid)) inventory = 0) :
    Sound env characters (World.start money inventory itemGuid) := by
  have hplaces : ∀ guid, (World.start money inventory itemGuid).places characters guid =
      Tally.tally characters (weigh (place guid)) inventory := by
    intro guid
    have hboxes : Tally.tally characters (boxWeight (place guid))
        (World.start money inventory itemGuid).box = 0 :=
      Finset.sum_eq_zero fun _ _ => rfl
    rw [World.places, World.total, hboxes]
    rfl
  refine ⟨hmoney, fun _ => nodup_nil, fun _ _ _ hm => (by cases hm), fun _ _ hm => (by cases hm),
    fun _ _ hm => (by cases hm), fun _ _ hm => (by cases hm), fun guid => ?_, fun guid hguid => ?_,
    fun _ _ hm => (by cases hm), fun _ _ hcod => (by cases hcod), fun _ _ => ⟨rfl, rfl⟩,
    fun _ hin => (by cases hin)⟩
  · rw [hplaces]
    exact hunique guid
  · rw [hplaces]
    exact hguids guid hguid

section Example

/-- Two characters, 7 and 8, of one account. -/
def flatEnv : Env where
  characterGuidByName name := if name = "Bo" then 8 else 0
  accountId _ := 1
  team _ := 0
  level _ := 80
  isGameMaster _ := false
  twoSideInteractionMail _ := false
  mailLevelReq := 1
  mailDeliveryDelay := 3600
  maxStackSize _ := 20

/-- A stack of five. -/
def stack : Item := ⟨50, 4306, 5, false, true, false, false, false, false, false⟩

/-- Character 7 has the stack, both have money. -/
def twoPlayers : World :=
  World.start (fun _ => 5000) (fun player => if player = 7 then [stack] else []) 51

theorem existing_twoPlayers {player : ℕ} (h : player = 7 ∨ player = 8) :
    Existing flatEnv {7, 8} player := by
  rcases h with rfl | rfl
  · exact ⟨by decide, by decide, by decide, rfl⟩
  · exact ⟨by decide, by decide, by decide, rfl⟩

theorem sound_twoPlayers : Sound flatEnv {7, 8} twoPlayers := by
  have hplace : ∀ guid, Tally.tally ({7, 8} : Finset ℕ) (weigh (place guid))
      (fun player => if player = 7 then [stack] else []) = if 50 = guid then 1 else 0 := by
    intro guid
    exact Nat.add_zero _
  refine sound_start (fun _ _ => by decide) (fun guid => ?_) fun guid hguid => ?_
  · rw [hplace]
    split_ifs <;> decide
  · rw [hplace, if_neg (by omega)]

/-- Character 7 sends the stack for 100, and names it twice; character 8 takes it. -/
def cashOnDelivery : List Op :=
  [.login 7, .sendMail 7 true ⟨"Bo", 10, 100, [50, 50]⟩ 0, .mailCountResult 0 0 5, .login 8,
    .takeItem 8 true 1 50 6 (some [(none, 5)])]

theorem mail_conserves_cashOnDelivery :
    Run.Along (World.step flatEnv) (Conserves flatEnv {7, 8}) twoPlayers cashOnDelivery := by
  refine mail_conserves flatEnv {7, 8} (fun name => ?_) twoPlayers sound_twoPlayers _ ?_
  · by_cases h : name = "Bo"
    · exact Or.inr ((if_pos h : flatEnv.characterGuidByName name = 8).symm ▸
        existing_twoPlayers (Or.inr rfl))
    · exact Or.inl (if_neg h)
  · intro op hop player hplayer
    refine existing_twoPlayers ?_
    simp only [cashOnDelivery, mem_cons, not_mem_nil, or_false] at hop
    rcases hop with rfl | rfl | rfl | rfl | rfl
    · cases hplayer
    · exact Or.inl (Option.some.inj hplayer).symm
    · cases hplayer
    · cases hplayer
    · exact Or.inr (Option.some.inj hplayer).symm

/-- Character 7 has won an auction of house 2; the mail holds the stack and some money. -/
def auctionMail : World :=
  { twoPlayers with
    inventory := fun _ => []
    mails := fun player => if player = 7 then [⟨1, .auction, 2, 7, 0, 500, 0, [50], false⟩] else []
    mItems := fun player => if player = 7 then [stack] else []
    mailId := 2
    session := fun player => if player = 7 then some 0 else none
    history := [.posted 1 0 0] }

/-- **A mail that is not returned**: the packet is accepted, and the stack and the money are nowhere. -/
theorem auctionMail_dropped :
    (auctionMail.respond flatEnv (.returnToSender 7 true 1 2 0)).2 = some .ok ∧
      auctionMail.places {7, 8} 50 = 1 ∧
      (auctionMail.step flatEnv (.returnToSender 7 true 1 2 0)).places {7, 8} 50 = 0 ∧
      (auctionMail.step flatEnv (.returnToSender 7 true 1 2 0)).wealth {7, 8} + 500 =
        auctionMail.wealth {7, 8} := by
  decide

end Example

end IscServer.Mails
