import IscServer.Entities.PlayerMoney
import IscServer.Library.Keyed

/-!
# Mail

The mail packets (`game/Handlers/MailHandler.cpp`) and `MailDraft` (`game/Mails/Mail.cpp`).

* A mail names its attachments by guid; the items are in the `mMitems` of the character whose mail it is.
  Both are kept for every character, whether it is in memory or only in the database.
* `HandleSendMail` ends in a continuation. It runs at once when the receiver is connected, and otherwise
  when the mail count has been read; until then it waits in `pending`. `session` is the `Player` object of
  a session, numbered by logins, so that the continuation can compare it with the one it has captured.
* `CanOpenMailBox` and the clock are part of a packet. So is the answer of `CanStoreItem`: any answer
  that fits the item and the inventory (`ValidDest`).
* `history` is what an observer notes, latest first. Nothing in the source reads it.
-/

namespace IscServer.Mails

open IscServer.Player

/-! ### Mails and characters -/

/-- `MailMessageType`. -/
inductive MailMessageType
  | normal
  | auction
  | creature
  | gameobject
  | calendar
  deriving DecidableEq, Repr

/-- `MailResponseResult`. -/
inductive MailResponseResult
  | ok
  | equipError
  | cannotSendToSelf
  | notEnoughMoney
  | recipientNotFound
  | notYourTeam
  | internalError
  | recipientCapReached
  | cantSendWrappedCod
  | tooManyAttachments
  | mailAttachmentInvalid
  deriving DecidableEq, Repr

/-- What the handlers read of an `Item`. -/
structure Item where
  guid : ℕ
  entry : ℕ
  count : ℕ
  isNotEmptyBag : Bool
  canBeTraded : Bool
  boundAccountWide : Bool
  soulBound : Bool
  conjuredOrDuration : Bool
  wrapped : Bool
  boundToAccountTemplate : Bool
  deriving DecidableEq, Repr

/-- `Mail`. -/
structure Mail where
  messageID : ℕ
  messageType : MailMessageType
  sender : ℕ
  receiver : ℕ
  deliverTime : ℕ
  money : ℕ
  COD : ℕ
  items : List ℕ
  deleted : Bool
  deriving DecidableEq, Repr

/-- What is noted of a run: a mail is posted, with its COD and its postage; an item is taken, with what
has been paid for it and whether the object has been merged into others; a mail has been dropped with its
items. -/
inductive Event
  | posted (messageID cod cost : ℕ)
  | took (messageID guid paid : ℕ) (merged : Bool)
  | dropped (mail : Mail) (items : List Item)
  deriving DecidableEq, Repr

/-- `WorldPackets::Mail::SendMail`, without its texts. -/
structure SendMail where
  target : String
  sendMoney : ℤ
  cod : ℤ
  attachments : List ℕ
  deriving DecidableEq, Repr

/-- What `mailCountCheckContinuation` has captured. -/
structure Continuation where
  player : ℕ
  login : ℕ
  receiver : ℕ
  attachments : List ℕ
  sendMoney : ℕ
  cod : ℕ
  reqmoney : ℕ
  cost : ℕ
  deriving DecidableEq, Repr

/-- Characters and configuration. A character without account does not exist. -/
structure Env where
  characterGuidByName : String → ℕ
  accountId : ℕ → ℕ
  team : ℕ → ℕ
  level : ℕ → ℕ
  isGameMaster : ℕ → Bool
  twoSideInteractionMail : ℕ → Bool
  mailLevelReq : ℕ
  mailDeliveryDelay : ℕ
  maxStackSize : ℕ → ℕ

/-- The state of all characters. -/
structure World where
  money : ℕ → ℕ
  inventory : ℕ → List Item
  mails : ℕ → List Mail
  mItems : ℕ → List Item
  mailId : ℕ
  itemGuid : ℕ
  session : ℕ → Option ℕ
  logins : ℕ
  pending : List Continuation
  history : List Event

/-- Characters without mails. -/
def World.start (money : ℕ → ℕ) (inventory : ℕ → List Item) (itemGuid : ℕ) : World :=
  ⟨money, inventory, fun _ => [], fun _ => [], 1, itemGuid, fun _ => none, 0, [], []⟩

variable (env : Env)

/-- `Player::GetMail`. -/
def World.getMail (w : World) (player mailID : ℕ) : Option Mail :=
  Keyed.find Mail.messageID (w.mails player) mailID

/-- `Player::GetMItem`. -/
def World.getMItem (w : World) (player guid : ℕ) : Option Item :=
  Keyed.find Item.guid (w.mItems player) guid

/-- `Player::AddMItem`, for one item after the other. -/
def addMItems (mItems items : List Item) : List Item :=
  items.foldl (Keyed.assign Item.guid) mItems

/-- `Player::RemoveMItem`, for one guid after the other. -/
def removeMItems (mItems : List Item) (guids : List ℕ) : List Item :=
  mItems.filter fun item => !(item.guid ∈ guids)

/-- `Player::ModifyMoney(-amount)`. -/
def World.pay (w : World) (player amount : ℕ) : World :=
  { w with money := Function.update w.money player (modifyMoney (w.money player) (-int32 amount)) }

/-! ### Drafts -/

/-- `MailDraft`, with the sender of the mail. -/
structure MailDraft where
  sender : ℕ
  money : ℕ
  COD : ℕ
  items : List Item
  deriving DecidableEq, Repr

/-- `MailDraft::AddItem`: the items are a map. -/
def MailDraft.addItem (draft : MailDraft) (item : Item) : MailDraft :=
  { draft with items := Keyed.assign Item.guid draft.items item }

/-- `MailDraft::SendMailTo`, from a character. -/
def World.sendMailTo (w : World) (draft : MailDraft) (receiver deliverTime cost : ℕ) : World :=
  let mail : Mail := ⟨w.mailId, .normal, draft.sender, receiver, deliverTime, draft.money, draft.COD,
    draft.items.map Item.guid, false⟩
  { w with
    mailId := w.mailId + 1
    mails := Function.update w.mails receiver (mail :: w.mails receiver)
    mItems := Function.update w.mItems receiver (addMItems (w.mItems receiver) draft.items)
    history := .posted w.mailId draft.COD cost :: w.history }

/-- `MailDraft::SendReturnToSender`; nothing is sent to a character that does not exist. -/
def World.sendReturnToSender (w : World) (draft : MailDraft) (senderAcc receiver now : ℕ) : World :=
  if (w.session receiver).isNone && env.accountId receiver = 0 then w
  else
    -- the account is only looked up for a receiver that is not connected
    let rcAccount := if (w.session receiver).isNone then env.accountId receiver else 0
    let needItemDelay := !draft.items.isEmpty && !(senderAcc = rcAccount)
    w.sendMailTo draft receiver (now + if needItemDelay then env.mailDeliveryDelay else 0) 0

/-! ### Sending -/

/-- The checks of one attachment. -/
def World.attachment (w : World) (c : Continuation) (guid : ℕ) : Except MailResponseResult Item :=
  if guid = 0 then .error .mailAttachmentInvalid
  else match Keyed.find Item.guid (w.inventory c.player) guid with
    | none => .error .mailAttachmentInvalid
    | some item =>
      if item.isNotEmptyBag then .error .equipError
      else if !item.canBeTraded then .error .equipError
      else if item.boundAccountWide && item.soulBound &&
          !(env.accountId c.player = env.accountId c.receiver) then .error .equipError
      else if item.conjuredOrDuration then .error .equipError
      else if !(c.cod = 0) && item.wrapped then .error .cantSendWrappedCod
      else .ok item

/-- All attachments are account bound: those that are found, up to the first that is not. -/
def World.accountBound (w : World) (c : Continuation) : Bool :=
  !c.attachments.isEmpty && c.attachments.all fun guid =>
    match Keyed.find Item.guid (w.inventory c.player) guid with
    | none => true
    | some item => item.boundToAccountTemplate

/-- The checks of `mailCountCheckContinuation`. -/
def World.checkSendMail (w : World) (c : Continuation) (mailsCount : ℕ) :
    Except MailResponseResult (List Item) :=
  if w.money c.player < c.reqmoney && !env.isGameMaster c.player then .error .notEnoughMoney
  else if 100 < mailsCount then .error .recipientCapReached
  else if !w.accountBound c && !(env.team c.player = env.team c.receiver) &&
      !env.twoSideInteractionMail c.player then .error .notYourTeam
  else if env.level c.receiver < env.mailLevelReq then .error .internalError
  else c.attachments.mapM (w.attachment env c)

/-- `Player::MoveItemFromInventory`. -/
def World.moveItemFromInventory (w : World) (player : ℕ) (item : Item) : World :=
  { w with inventory := Function.update w.inventory player
             ((w.inventory player).filter fun other => !(other.guid = item.guid)) }

/-- `mailCountCheckContinuation` after its checks. -/
def World.postMail (w : World) (c : Continuation) (items : List Item) (now : ℕ) : World :=
  let w := w.pay c.player c.reqmoney
  let w := items.foldl (fun w item => w.moveItemFromInventory c.player item) w
  let draft := items.foldl MailDraft.addItem ⟨c.player, c.sendMoney,
    if c.attachments.isEmpty then 0 else c.cod, []⟩
  let needItemDelay := !c.attachments.isEmpty && !(env.accountId c.player = env.accountId c.receiver)
  w.sendMailTo draft c.receiver (now + if needItemDelay then env.mailDeliveryDelay else 0) c.cost

/-- `mailCountCheckContinuation`. -/
def World.mailCountCheckContinuation (w : World) (c : Continuation) (mailsCount now : ℕ) :
    World × Option MailResponseResult :=
  if !(w.session c.player = some c.login) then (w, none)
  else match w.checkSendMail env c mailsCount with
    | .error result => (w, some result)
    | .ok items => (w.postMail env c items now, some .ok)

/-- `MAX_MAIL_ITEMS`. -/
def maxMailItems : ℕ := 12

/-- `WorldSession::HandleSendMail`. -/
def World.handleSendMail (w : World) (player login : ℕ) (canOpenMailBox : Bool) (packet : SendMail)
    (now : ℕ) : World × Option MailResponseResult :=
  if maxMailItems < packet.attachments.length then (w, some .tooManyAttachments)
  else if !canOpenMailBox then (w, none)
  else if packet.target.isEmpty then (w, none)
  else if env.level player < env.mailLevelReq then (w, none)
  else
    let receiver := env.characterGuidByName packet.target
    if receiver = 0 then (w, some .recipientNotFound)
    else if packet.sendMoney < 0 then (w, some .internalError)
    else if packet.cod < 0 then (w, some .internalError)
    else if player = receiver then (w, some .cannotSendToSelf)
    else
      let cost := if packet.attachments.isEmpty then 30 else 30 * packet.attachments.length
      -- the sum wraps in an `int32`
      let reqmoney := ((cost : ℤ) + packet.sendMoney).bmod (2 ^ 32)
      if reqmoney < packet.sendMoney then (w, some .notEnoughMoney)
      else
        let c : Continuation := ⟨player, login, receiver, packet.attachments, packet.sendMoney.toNat,
          packet.cod.toNat, reqmoney.toNat, cost⟩
        if (w.session receiver).isSome then
          w.mailCountCheckContinuation env c (w.mails receiver).length now
        else ({ w with pending := w.pending ++ [c] }, none)

/-- The callback of the query for the mail count. -/
def World.mailCountResult (w : World) (index mailsCount now : ℕ) : World × Option MailResponseResult :=
  match w.pending[index]? with
  | none => (w, none)
  | some c =>
    let w := { w with pending := w.pending.eraseIdx index }
    if env.accountId c.receiver = 0 then (w, none)
    else w.mailCountCheckContinuation env c mailsCount now

/-! ### Taking and returning -/

/-- Overwrite a mail of a character. -/
def World.putMail (w : World) (player : ℕ) (mail : Mail) : World :=
  { w with mails := Function.update w.mails player (Keyed.put Mail.messageID (w.mails player) mail) }

/-- `Player::RemoveMail`. -/
def World.removeMail (w : World) (player mailID : ℕ) : World :=
  { w with mails := Function.update w.mails player
             ((w.mails player).filter fun mail => !(mail.messageID = mailID)) }

/-- `WorldSession::HandleMailReturnToSender`. -/
def World.handleMailReturnToSender (w : World) (player : ℕ) (canOpenMailBox : Bool)
    (mailID senderGUID now : ℕ) : World × Option MailResponseResult :=
  if !canOpenMailBox then (w, none)
  else match w.getMail player mailID with
    | none => (w, some .internalError)
    | some m =>
      if m.deleted || now < m.deliverTime || !(m.sender = senderGUID) then (w, some .internalError)
      else
        let w := w.removeMail player mailID
        -- only what a character has sent goes back
        if m.messageType = .normal && !(m.sender = 0) then
          let items := m.items.filterMap (w.getMItem player)
          let w := { w with mItems :=
              Function.update w.mItems player (removeMItems (w.mItems player) m.items) }
          let draft := items.foldl MailDraft.addItem ⟨m.receiver, m.money, 0, []⟩
          (w.sendReturnToSender env draft (env.accountId player) m.sender now, some .ok)
        else
          let items := m.items.filterMap (w.getMItem player)
          ({ w with history := .dropped m items :: w.history }, some .ok)

/-- An answer of `CanStoreItem` that fits: the places of the item, each an empty slot (`none`) or a
stack of the same item, with their counts. -/
def ValidDest (inventory : List Item) (item : Item) (dest : List (Option ℕ × ℕ)) : Prop :=
  dest ≠ [] ∧ (dest.map Prod.snd).sum = item.count ∧ (dest.filterMap Prod.fst).Nodup ∧
    ∀ place ∈ dest, place.2 ≤ env.maxStackSize item.entry ∧
      ∀ guid ∈ place.1, ∃ stack ∈ inventory, stack.guid = guid ∧ stack.entry = item.entry

instance (inventory : List Item) (item : Item) (dest : List (Option ℕ × ℕ)) :
    Decidable (ValidDest env inventory item dest) :=
  inferInstanceAs (Decidable (_ ∧ _ ∧ _ ∧ _))

/-- A stack grows. -/
def addToStack (inventory : List Item) (guid count : ℕ) : List Item :=
  inventory.map fun stack =>
    if stack.guid = guid then { stack with count := stack.count + count } else stack

/-- `Player::StoreItem`: the item itself goes to the last place, clones of it to empty slots before;
what goes to a stack makes it larger. -/
def storeItem (item : Item) : List Item → ℕ → List (Option ℕ × ℕ) → List Item × ℕ
  | inventory, itemGuid, [] => (inventory, itemGuid)
  | inventory, itemGuid, [(none, count)] => (inventory ++ [{ item with count := count }], itemGuid)
  | inventory, itemGuid, [(some guid, count)] => (addToStack inventory guid count, itemGuid)
  | inventory, itemGuid, (none, count) :: place :: dest =>
    let clone := { item with guid := itemGuid, count := min count (env.maxStackSize item.entry) }
    storeItem item (inventory ++ [clone]) (itemGuid + 1) (place :: dest)
  | inventory, itemGuid, (some guid, count) :: place :: dest =>
    storeItem item (addToStack inventory guid count) itemGuid (place :: dest)

/-- The item object is gone after it has been stored: its last place is a stack. -/
def merged (dest : List (Option ℕ × ℕ)) : Bool := (dest.getLast?.bind Prod.fst).isSome

/-- The COD of a mail is sent to its sender and paid. -/
def World.payCOD (w : World) (player : ℕ) (m : Mail) (now : ℕ) : World :=
  if 0 < m.COD then
    let w := if (w.session m.sender).isSome || !(env.accountId m.sender = 0) then
        w.sendMailTo ⟨m.receiver, m.COD, 0, []⟩ m.sender now 0
      else w
    w.pay player m.COD
  else w

/-- `WorldSession::HandleMailTakeItem`, with the answer of `CanStoreItem`. -/
def World.handleMailTakeItem (w : World) (player : ℕ) (canOpenMailBox : Bool) (mailID attachID now : ℕ)
    (canStoreItem : Option (List (Option ℕ × ℕ))) : World × Option MailResponseResult :=
  if !canOpenMailBox then (w, none)
  else match w.getMail player mailID with
    | none => (w, some .internalError)
    | some m =>
      if m.deleted || now < m.deliverTime then (w, some .internalError)
      else if attachID ∉ m.items then (w, some .internalError)
      else if w.money player < m.COD then (w, some .notEnoughMoney)
      else match w.getMItem player attachID, canStoreItem with
        | some item, some dest =>
          if ValidDest env (w.inventory player) item dest then
            let paid := w.payCOD env player m now
            let w := paid.putMail player { m with items := m.items.erase attachID, COD := 0 }
            let stored := storeItem env item (w.inventory player) w.itemGuid dest
            ({ w with
              mItems := Function.update w.mItems player (removeMItems (w.mItems player) [attachID])
              inventory := Function.update w.inventory player stored.1
              itemGuid := stored.2
              history := .took mailID attachID m.COD (merged dest) :: w.history }, some .ok)
          else (w, some .equipError)
        | _, _ => (w, some .equipError)

/-- `WorldSession::HandleMailTakeMoney`. -/
def World.handleMailTakeMoney (w : World) (player : ℕ) (canOpenMailBox : Bool) (mailID now : ℕ) :
    World × Option MailResponseResult :=
  if !canOpenMailBox then (w, none)
  else match w.getMail player mailID with
    | none => (w, some .internalError)
    | some m =>
      if m.deleted || now < m.deliverTime then (w, some .internalError)
      else match tryModifyMoney (w.money player) (int32 m.money) with
        | none => (w, some .equipError)
        | some money =>
          let taken := w.putMail player { m with money := 0 }
          ({ taken with money := Function.update w.money player money }, some .ok)

/-! ### Steps -/

/-- What can happen: packets of a player, the end of a query for a mail count, logins and logouts. -/
inductive Op
  | sendMail (player : ℕ) (canOpenMailBox : Bool) (packet : SendMail) (now : ℕ)
  | mailCountResult (index mailsCount now : ℕ)
  | takeItem (player : ℕ) (canOpenMailBox : Bool) (mailID attachID now : ℕ)
      (canStoreItem : Option (List (Option ℕ × ℕ)))
  | takeMoney (player : ℕ) (canOpenMailBox : Bool) (mailID now : ℕ)
  | returnToSender (player : ℕ) (canOpenMailBox : Bool) (mailID senderGUID now : ℕ)
  | login (player : ℕ)
  | logout (player : ℕ)
  deriving DecidableEq, Repr

/-- The player whose packet it is. -/
def Op.player? : Op → Option ℕ
  | .sendMail player _ _ _ => some player
  | .takeItem player _ _ _ _ _ => some player
  | .takeMoney player _ _ _ => some player
  | .returnToSender player _ _ _ _ => some player
  | _ => none

/-- One step with the result that is sent to the client; the packets of a player that is not connected
are not there. -/
def World.respond (w : World) : Op → World × Option MailResponseResult
  | .sendMail player canOpenMailBox packet now => match w.session player with
      | none => (w, none)
      | some login => w.handleSendMail env player login canOpenMailBox packet now
  | .mailCountResult index mailsCount now => w.mailCountResult env index mailsCount now
  | .takeItem player canOpenMailBox mailID attachID now canStoreItem =>
    if (w.session player).isNone then (w, none)
    else w.handleMailTakeItem env player canOpenMailBox mailID attachID now canStoreItem
  | .takeMoney player canOpenMailBox mailID now =>
    if (w.session player).isNone then (w, none)
    else w.handleMailTakeMoney player canOpenMailBox mailID now
  | .returnToSender player canOpenMailBox mailID senderGUID now =>
    if (w.session player).isNone then (w, none)
    else w.handleMailReturnToSender env player canOpenMailBox mailID senderGUID now
  | .login player => ({ w with
      session := Function.update w.session player (some w.logins)
      logins := w.logins + 1 }, none)
  | .logout player => ({ w with session := Function.update w.session player none }, none)

/-- One step. -/
def World.step (w : World) (op : Op) : World := (w.respond env op).1

end IscServer.Mails
