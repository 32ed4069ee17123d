import Mathlib
import IscServer.Library.Run

/-!
# Guild Logs

`Guild::LogHolder`, `Guild::_LogEvent`, `Guild::_LogBankEvent`, `Guild::LoadEventLogFromDB`,
`Guild::LoadBankEventLogFromDB` (`game/Guilds/Guild.cpp`) and the event logs of
`GuildMgr::LoadGuilds` (`game/Guilds/GuildMgr.cpp`).

Each holder keeps the last events of a guild, or of a tab of its bank, in memory and in a table.
The record numbers of a holder go round in a ring. At a restart the holders are filled from the
table, in the order `TimeStamp DESC, LogGuid DESC`, and each row is put to the front.

* `LogTable` is one of the two tables, with what makes a row of it load: the holders of the table
  are told apart by a key.
* The answer of the loading query is a part of a restart: rows that the order does not tell apart,
  which belong to different holders, may come in any order.
* Timestamps are seconds that the column of the table can hold.
-/

namespace IscServer.GuildLogs

/-! ### Holders -/

/-- `LogEntry`: what is common to both logs, and the event. -/
structure LogEntry (α : Type) where
  guid : ℕ
  timestamp : ℕ
  event : α
  deriving DecidableEq, Repr

/-- `LogHolder`. The number of the last record is a `uint32`. -/
structure LogHolder (α : Type) where
  log : List (LogEntry α)
  nextGuid : ℕ
  deriving DecidableEq, Repr

/-- `GUILD_EVENT_LOG_GUID_UNDEFINED`. -/
def guidUndefined : ℕ := 0xFFFFFFFF

variable {α κ : Type} (maxRecords : ℕ)

/-- The constructor of `LogHolder`. -/
def LogHolder.new : LogHolder α := ⟨[], guidUndefined⟩

/-- `LogHolder::CanInsert`. -/
def LogHolder.canInsert (holder : LogHolder α) : Bool := holder.log.length < maxRecords

/-- `LogHolder::LoadEvent`. -/
def LogHolder.loadEvent (holder : LogHolder α) (newEntry : LogEntry α) : LogHolder α :=
  ⟨newEntry :: holder.log,
    if holder.nextGuid = guidUndefined then newEntry.guid else holder.nextGuid⟩

/-- The entry that `LogHolder::AddEvent` puts to the end of the log. -/
def LogHolder.addEvent (holder : LogHolder α) (entry : LogEntry α) : LogHolder α :=
  { holder with
    log := (if holder.canInsert maxRecords then holder.log else holder.log.tail) ++ [entry] }

/-- `LogHolder::GetNextGUID`, which also sets `m_nextGUID` to it. -/
def LogHolder.getNextGuid (holder : LogHolder α) : ℕ :=
  if holder.nextGuid = guidUndefined then 0 else (holder.nextGuid + 1) % 2 ^ 32 % maxRecords

/-! ### Tables -/

/-- A row of a table, with the key of its holder. -/
structure Row (κ α : Type) where
  key : κ
  entry : LogEntry α
  deriving DecidableEq, Repr

/-- One of the two tables: the number of records that a holder keeps, and how a row is loaded. A row
is accepted by its key and its event. -/
structure LogTable (κ α : Type) where
  maxRecords : ℕ
  accepts : κ → α → Bool
  load : κ → LogHolder α → LogEntry α → LogHolder α
  pos : 0 < maxRecords
  lt : maxRecords < 2 ^ 32
  load_eq : ∀ key holder entry, load key holder entry =
    if accepts key entry.event && holder.canInsert maxRecords then holder.loadEvent entry else holder

/-- `SaveToDB`: the row of the same holder with the same number is deleted, and the entry is
inserted. -/
def saveToDB [DecidableEq κ] (table : List (Row κ α)) (row : Row κ α) : List (Row κ α) :=
  table.filter (fun old => !(old.key = row.key && old.entry.guid = row.entry.guid)) ++ [row]

/-- `ORDER BY TimeStamp DESC, LogGuid DESC`. -/
def QueryOrder (a b : LogEntry α) : Prop :=
  b.timestamp < a.timestamp ∨ a.timestamp = b.timestamp ∧ b.guid ≤ a.guid

instance (a b : LogEntry α) : Decidable (QueryOrder a b) := inferInstanceAs (Decidable (_ ∨ _))

/-! ### The two tables -/

/-- `EventLogEntry`. The types of events are those of `GuildEventLogTypes`. -/
structure GuildEvent where
  eventType : ℕ
  playerGuid1 : ℕ
  playerGuid2 : ℕ
  newRank : ℕ
  deriving DecidableEq, Repr

/-- `GuildBankEventLogTypes`. -/
inductive GuildBankEventLogTypes
  | depositItem
  | withdrawItem
  | moveItem
  | depositMoney
  | withdrawMoney
  | repairMoney
  | moveItem2
  | unk1
  | buySlot
  deriving DecidableEq, Repr

/-- `BankEventLogEntry`, without its tab. -/
structure BankEvent where
  eventType : GuildBankEventLogTypes
  playerGuid : ℕ
  itemOrMoney : ℕ
  itemStackCount : ℕ
  destTabId : ℕ
  deriving DecidableEq, Repr

/-- `BankEventLogEntry::IsMoneyEvent`. -/
def GuildBankEventLogTypes.isMoneyEvent (eventType : GuildBankEventLogTypes) : Bool :=
  eventType = .depositMoney || eventType = .withdrawMoney || eventType = .repairMoney

/-- `GUILD_BANK_MAX_TABS`. -/
def bankMaxTabs : ℕ := 6

/-- `GUILD_BANK_MONEY_LOGS_TAB`. -/
def bankMoneyLogsTab : ℕ := 100

/-- `Guild::LoadEventLogFromDB`. -/
def loadEventLogFromDB (holder : LogHolder α) (entry : LogEntry α) : LogHolder α :=
  if holder.canInsert maxRecords then holder.loadEvent entry else holder

/-- `Guild::LoadBankEventLogFromDB`, with the holder of the tab `dbTabId`. -/
def loadBankEventLogFromDB (purchasedTabs dbTabId : ℕ) (holder : LogHolder BankEvent)
    (entry : LogEntry BankEvent) : LogHolder BankEvent :=
  let isMoneyTab : Bool := dbTabId = bankMoneyLogsTab
  if dbTabId < purchasedTabs || isMoneyTab then
    if holder.canInsert maxRecords then
      if entry.event.eventType.isMoneyEvent then
        if !isMoneyTab then holder else holder.loadEvent entry
      else if isMoneyTab then holder
      else holder.loadEvent entry
    else holder
  else holder

/-- The rows that `LoadBankEventLogFromDB` loads when there is room for them. -/
def bankAccepts (purchasedTabs dbTabId : ℕ) (event : BankEvent) : Bool :=
  if event.eventType.isMoneyEvent then dbTabId = bankMoneyLogsTab
  else dbTabId < purchasedTabs && !decide (dbTabId = bankMoneyLogsTab)

theorem loadBankEventLogFromDB_eq (purchasedTabs dbTabId : ℕ) (holder : LogHolder BankEvent)
    (entry : LogEntry BankEvent) :
    loadBankEventLogFromDB maxRecords purchasedTabs dbTabId holder entry =
      if bankAccepts purchasedTabs dbTabId entry.event && holder.canInsert maxRecords then
        holder.loadEvent entry
      else holder := by
  rw [loadBankEventLogFromDB, bankAccepts]
  cases entry.event.eventType.isMoneyEvent <;> cases holder.canInsert maxRecords <;>
    by_cases hmoney : dbTabId = bankMoneyLogsTab <;>
    by_cases htab : dbTabId < purchasedTabs <;> simp [hmoney]

/-- The tab under which `Guild::_LogBankEvent` logs an event, if it does. -/
def logBankTab (eventType : GuildBankEventLogTypes) (tabId destTabId : ℕ) : Option ℕ :=
  if bankMaxTabs < tabId then none
  else if eventType = .moveItem ∧ tabId = destTabId then none
  else if eventType.isMoneyEvent then some bankMoneyLogsTab
  else some tabId

/-- What is logged for a purchased tab is accepted when it is loaded. -/
theorem logBankTab_accepted {purchasedTabs tabId dbTabId : ℕ} {event : BankEvent}
    (htab : tabId < purchasedTabs)
    (h : logBankTab event.eventType tabId event.destTabId = some dbTabId) :
    bankAccepts purchasedTabs dbTabId event = true := by
  rw [logBankTab] at h
  rw [bankAccepts]
  split_ifs at h with hmax hmove hmoney
  · obtain rfl := Option.some.inj h
    rw [if_pos hmoney]
    rfl
  · obtain rfl := Option.some.inj h
    have hsmall : tabId ≠ bankMoneyLogsTab := by
      rw [bankMaxTabs] at hmax
      rw [bankMoneyLogsTab]
      omega
    rw [if_neg hmoney, decide_eq_true htab, decide_eq_false hsmall]
    rfl

/-- The table `guild_eventlog`, whose holders are the logs of the guilds that exist. -/
def guildEventLog (guildExists : ℕ → Bool) (pos : 0 < maxRecords) (lt : maxRecords < 2 ^ 32) :
    LogTable ℕ GuildEvent where
  maxRecords := maxRecords
  accepts guildId _ := guildExists guildId
  load guildId holder entry :=
    if guildExists guildId then loadEventLogFromDB maxRecords holder entry else holder
  pos := pos
  lt := lt
  load_eq guildId holder entry := by
    rw [loadEventLogFromDB]
    cases guildExists guildId <;> rfl

/-- The table `guild_bank_eventlog`, whose holders are the logs of the tabs of the guilds that exist,
`_GetPurchasedTabsSize` of each of them. -/
def guildBankEventLog (purchasedTabs : ℕ → Option ℕ) (pos : 0 < maxRecords)
    (lt : maxRecords < 2 ^ 32) : LogTable (ℕ × ℕ) BankEvent where
  maxRecords := maxRecords
  accepts key event :=
    match purchasedTabs key.1 with
    | some tabs => bankAccepts tabs key.2 event
    | none => false
  load key holder entry :=
    match purchasedTabs key.1 with
    | some tabs => loadBankEventLogFromDB maxRecords tabs key.2 holder entry
    | none => holder
  pos := pos
  lt := lt
  load_eq key holder entry := by
    cases purchasedTabs key.1 with
    | none => rfl
    | some tabs => exact loadBankEventLogFromDB_eq maxRecords tabs key.2 holder entry

/-! ### The server and its restarts -/

/-- The holders and the table. What has been logged so far is kept here to be compared with them; it
is not a part of the server. -/
structure Server (κ α : Type) where
  now : ℕ
  holders : κ → LogHolder α
  table : List (Row κ α)
  logged : κ → List (LogEntry α)

/-- A server with an empty table. -/
def start : Server κ α := ⟨0, fun _ => LogHolder.new, [], fun _ => []⟩

namespace LogTable

variable [DecidableEq κ] (T : LogTable κ α)

/-- What happens: time passes, an event is logged, the server is restarted and the loading query
answers with some rows. -/
inductive Op
  | wait (seconds : ℕ)
  | log (key : κ) (event : α) (accepted : T.accepts key event = true)
  | restart (rows : List (Row κ α))

/-- `Guild::_LogEvent` and `Guild::_LogBankEvent`, with the holder of the event. -/
def logEvent (s : Server κ α) (key : κ) (event : α) : Server κ α :=
  let guid := (s.holders key).getNextGuid T.maxRecords
  let entry : LogEntry α := ⟨guid, s.now, event⟩
  { s with
    holders := Function.update s.holders key
      ({ s.holders key with nextGuid := guid }.addEvent T.maxRecords entry)
    table := saveToDB s.table ⟨key, entry⟩
    logged := Function.update s.logged key (s.logged key ++ [entry]) }

/-- `DELETE FROM … WHERE LogGuid > …`, before the query. -/
def trimmed (table : List (Row κ α)) : List (Row κ α) :=
  table.filter fun row => row.entry.guid ≤ T.maxRecords

/-- The loop of `GuildMgr::LoadGuilds` over the rows. -/
def loadRows (rows : List (Row κ α)) (holders : κ → LogHolder α) : κ → LogHolder α :=
  rows.foldl (fun holders row =>
    Function.update holders row.key (T.load row.key (holders row.key) row.entry)) holders

/-- One step. -/
def step (s : Server κ α) : T.Op → Server κ α
  | .wait seconds => { s with now := s.now + seconds }
  | .log key event _ => T.logEvent s key event
  | .restart rows =>
    { s with table := T.trimmed s.table, holders := T.loadRows rows fun _ => LogHolder.new }

/-- The rows of a restart are an answer of the query: those of the table, in its order. -/
def Answers (s : Server κ α) : T.Op → Prop
  | .restart rows => rows.Perm (T.trimmed s.table) ∧
      rows.Pairwise fun a b => QueryOrder a.entry b.entry
  | _ => True

end LogTable

end IscServer.GuildLogs
