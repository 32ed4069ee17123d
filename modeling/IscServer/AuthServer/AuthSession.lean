import IscServer.Networking.Socket

/-!
# Auth Sessions

`AuthSession` (`authserver/Server/AuthSession.h`, `AuthSession.cpp`): the connection of a client
that logs in. `readHandler` cuts the received bytes into commands and runs their handlers;
handlers queue database queries, whose callbacks go on when the answers come.

The handlers work on memory: `memory` is what `GetReadPointer` points to, received or not, and
`HandlerResult.extent` is how far from there a handler looks. Outside of the model, as parameters
(`AuthEnv`): the cryptography, the configuration, the build and address tables, the random
challenge and the contents of the realm list. The locale and the time zone, which only go into a
database statement, and the statements that log and punish wrong passwords are left out.
-/

namespace IscServer

open List

/-- `AuthStatus`. -/
inductive AuthStatus where
  | challenge
  | logonProof
  | reconnectProof
  | authed
  | waitingForRealmList
  | xfer
  | closed
  deriving DecidableEq, Repr

/-- The commands of `eAuthCmd` that clients send. -/
inductive AuthCmd where
  | logonChallenge
  | logonProof
  | reconnectChallenge
  | reconnectProof
  | realmList
  | xferAccept
  | xferResume
  | xferCancel
  deriving DecidableEq, Repr

namespace AuthCmd

/-- The values of `eAuthCmd`. -/
def code : AuthCmd → UInt8
  | logonChallenge => 0x00
  | logonProof => 0x01
  | reconnectChallenge => 0x02
  | reconnectProof => 0x03
  | realmList => 0x10
  | xferAccept => 0x32
  | xferResume => 0x33
  | xferCancel => 0x34

/-- The commands with a length field. -/
def isChallenge (cmd : AuthCmd) : Bool :=
  cmd = logonChallenge ∨ cmd = reconnectChallenge

end AuthCmd

/-! ### The handler table -/

/-- `sizeof(sAuthLogonChallenge_C)`. -/
def sizeofLogonChallenge : ℕ := 34

/-- `sizeof(sAuthLogonProof_C)`. -/
def sizeofLogonProof : ℕ := 75

/-- `sizeof(sAuthReconnectProof_C)`. -/
def sizeofReconnectProof : ℕ := 58

/-- `AUTH_LOGON_CHALLENGE_INITIAL_SIZE`. -/
def challengeInitialSize : ℕ := 4

/-- `REALM_LIST_PACKET_SIZE`. -/
def realmListPacketSize : ℕ := 5

/-- `MAX_ACCEPTED_CHALLENGE_SIZE`. -/
def maxAcceptedChallengeSize : ℕ := sizeofLogonChallenge + 255

/-- `AuthHandler`. -/
structure AuthHandler where
  cmd : AuthCmd
  status : AuthStatus
  packetSize : ℕ
  deriving DecidableEq, Repr

/-- `AuthHandlerTable::_handlers`, each at the index of its command. -/
def authHandlers : List AuthHandler :=
  [⟨.logonChallenge, .challenge, challengeInitialSize⟩,
    ⟨.logonProof, .logonProof, sizeofLogonProof⟩,
    ⟨.reconnectChallenge, .challenge, challengeInitialSize⟩,
    ⟨.reconnectProof, .reconnectProof, sizeofReconnectProof⟩,
      ⟨.realmList, .authed, realmListPacketSize⟩,
    ⟨.xferAccept, .xfer, 1⟩, ⟨.xferResume, .xfer, 9⟩, ⟨.xferCancel, .xfer, 1⟩]

/-- `GetOpcodeArrayIndex`. -/
def getOpcodeArrayIndex (c : UInt8) : ℕ :=
  unsignedSub ((c &&& 0x7).toNat + ((c &&& 0x10) >>> 2).toNat) ((c &&& 0x20) >>> 5).toNat

/-- `AuthHandlerTable::operator[]`. -/
def findHandler (c : UInt8) : Option AuthHandler :=
  authHandlers[getOpcodeArrayIndex c]?.filter fun h => h.cmd.code = c

theorem mem_of_findHandler {c : UInt8} {h : AuthHandler} (hc : findHandler c = some h) :
    h ∈ authHandlers := by
  obtain ⟨hget, -⟩ := Option.filter_eq_some_iff.mp hc
  exact mem_of_getElem? hget

/-! ### Accounts, queries and the environment -/

/-- `AccountInfo`, as far as the modelled functions use it. -/
structure AccountInfo where
  login : List UInt8 := []
  isLockedToIP : Bool := false
  lockCountry : String := ""
  lastIP : String := ""
  failedLogins : ℕ := 0
  isBanned : Bool := false
  isPermanenetlyBanned : Bool := false
  deriving DecidableEq, Repr

/-- A row of `LOGIN_SEL_LOGONCHALLENGE`. -/
structure LogonChallengeRow where
  account : AccountInfo
  totpSecret : Option (List UInt8)
  salt : List UInt8
  verifier : List UInt8
  deriving DecidableEq, Repr

/-- A row of `LOGIN_SEL_RECONNECTCHALLENGE`. -/
structure ReconnectChallengeRow where
  account : AccountInfo
  sessionKey : List UInt8
  deriving DecidableEq, Repr

/-- A query whose callback has not run. -/
inductive Query where
  | logonChallenge (login : List UInt8)
  | reconnectChallenge (login : List UInt8)
  | logonProof (sessionVerifier : List UInt8)
  | realmList
  deriving DecidableEq, Repr

/-- What the database answers to a query: a row, nothing of interest, or the character counts. -/
def Query.Answer : Query → Type
  | .logonChallenge _ => Option LogonChallengeRow
  | .reconnectChallenge _ => Option ReconnectChallengeRow
  | .logonProof _ => Unit
  | .realmList => List (ℕ × ℕ)

/-- What an auth session takes from outside: `σ` is the data of an `SRP6` object. -/
structure AuthEnv (σ : Type) where
  ipAddress : String
  ipCountry : Option String
  strictVersionCheck : Bool
  executableHashes : ℕ → Option (List (ℕ × List UInt8))
  maxWrongPassCount : ℕ
  toUpperOnlyLatin : List UInt8 → List UInt8
  newSrp6 : List UInt8 → List UInt8 → List UInt8 → σ
  srp6Greeting : σ → List UInt8
  verifyChallengeResponse : σ → List UInt8 → List UInt8 → Option (List UInt8)
  getSessionVerifier : List UInt8 → List UInt8 → List UInt8 → List UInt8
  sha1 : List UInt8 → List UInt8
  validateToken : List UInt8 → ℕ → Bool
  decryptTotpSecret : List UInt8 → Option (List UInt8)
  randomBytes : List UInt8
  realmListPacket : List (ℕ × ℕ) → List UInt8

/-- `SRP6`: an object verifies at most once. -/
structure Srp6 (σ : Type) where
  data : σ
  used : Bool := false
  deriving DecidableEq, Repr

/-- The fields of `AuthSession` next to those of its socket. -/
structure AuthState (σ : Type) where
  status : AuthStatus := .challenge
  srp6 : Option (Srp6 σ) := none
  sessionKey : List UInt8 := List.replicate 40 0
  reconnectProof : List UInt8 := List.replicate 16 0
  accountInfo : AccountInfo := {}
  totpSecret : Option (List UInt8) := none
  os : ℕ := 0
  build : ℕ := 0
  expversion : ℕ := 0
  queries : List Query := []
  deriving DecidableEq, Repr

/-! ### Memory -/

/-- The byte at an offset. -/
def byteAt (memory : List UInt8) (offset : ℕ) : UInt8 :=
  memory.getD offset 0

/-- The bytes from an offset on. -/
def bytesAt (memory : List UInt8) (offset size : ℕ) : List UInt8 :=
  (memory.drop offset).take size

/-- A `little_uint16_t`. -/
def uint16At (memory : List UInt8) (offset : ℕ) : ℕ :=
  (byteAt memory offset).toNat + (byteAt memory (offset + 1)).toNat * 256

/-- A `little_uint32_t`. -/
def uint32At (memory : List UInt8) (offset : ℕ) : ℕ :=
  uint16At memory offset + uint16At memory (offset + 2) * 256 ^ 2

variable {offset : ℕ}

variable {memory : List UInt8} {n : ℕ}

theorem byteAt_take (h : offset < n) : byteAt (memory.take n) offset = byteAt memory offset := by
  rw [byteAt, byteAt, getD_eq_getElem?_getD, getD_eq_getElem?_getD, List.getElem?_take, if_pos h]

theorem bytesAt_take {size : ℕ} (h : offset + size ≤ n) :
    bytesAt (memory.take n) offset size = bytesAt memory offset size := by
  rw [bytesAt, bytesAt, drop_take, take_take, Nat.min_eq_left (by omega)]

theorem uint16At_take (h : offset + 1 < n) :
    uint16At (memory.take n) offset = uint16At memory offset := by
  rw [uint16At, uint16At, byteAt_take (by omega), byteAt_take h]

theorem uint32At_take (h : offset + 3 < n) :
    uint32At (memory.take n) offset = uint32At memory offset := by
  rw [uint32At, uint32At, uint16At_take (by omega), uint16At_take (by omega)]

/-- `isspace` and `isdigit` in the C locale. -/
def isSpace (c : UInt8) : Bool :=
  c = 0x20 ∨ 0x09 ≤ c ∧ c ≤ 0x0D

def isDigit (c : UInt8) : Bool :=
  0x30 ≤ c ∧ c ≤ 0x39

/-- `uint32(atoi(token.c_str()))`: up to a zero byte, leading space, a sign, digits. -/
def atoi (token : List UInt8) : ℕ :=
  let text := (token.takeWhile (· ≠ 0)).dropWhile isSpace
  let digits := if text.head? = some 0x2D ∨ text.head? = some 0x2B then text.tail else text
  let value := (digits.takeWhile isDigit).foldl (fun n c => n * 10 + (c.toNat - 0x30)) 0 % 2 ^ 32
  if text.head? = some 0x2D then unsignedSub 0 value % 2 ^ 32 else value

/-! ### Command handlers -/

/-- What a handler returns and does: whether the connection goes on, the new state, the packets
it sends, the bytes that it marks as read itself, and how far it looks. -/
structure HandlerResult (σ : Type) where
  ok : Bool
  state : AuthState σ
  reply : List (List UInt8) := []
  consumed : ℕ := 0
  extent : ℕ

namespace AuthState

variable {σ : Type} (E : AuthEnv σ)

/-- `MAX_PRE_BC_CLIENT_BUILD`. -/
def maxPreBCClientBuild : ℕ := 6141

/-- `POST_BC_EXP_FLAG`. -/
def postBCExpFlag : ℕ := 0x2

/-- `PRE_BC_EXP_FLAG`. -/
def preBCExpFlag : ℕ := 0x1

/-- `NO_VALID_EXP_FLAG`. -/
def noValidExpFlag : ℕ := 0x0

/-- `AuthHelper::IsAcceptedClientBuild`. -/
def isAcceptedClientBuild (build : ℕ) : Bool :=
  (E.executableHashes build).isSome

/-- The expansion of a client build. -/
def expversionOf (build : ℕ) : ℕ :=
  if build > maxPreBCClientBuild ∧ isAcceptedClientBuild E build then postBCExpFlag
  else if build ≤ maxPreBCClientBuild ∧ isAcceptedClientBuild E build then preBCExpFlag
  else noValidExpFlag

/-- `VerifyVersion`. -/
def verifyVersion (s : AuthState σ) (a versionProof : List UInt8) (isReconnect : Bool) : Bool :=
  if !E.strictVersionCheck then true
  else if isReconnect then versionProof = E.sha1 (a ++ List.replicate 20 0)
  else
    match E.executableHashes s.build with
    | none => false
    | some hashes =>
      match hashes.find? fun h => h.1 = s.os with
      | none => true
      | some h => versionProof = E.sha1 (a ++ h.2)

/-- The common body of `HandleLogonChallenge` and `HandleReconnectChallenge`. -/
def handleChallenge (query : List UInt8 → Query) (s : AuthState σ) (memory : List UInt8) :
    HandlerResult σ :=
  let s := { s with status := .closed }
  let loginLength := (byteAt memory 33).toNat
  if unsignedSub (uint16At memory 2) (sizeofLogonChallenge - challengeInitialSize) ≠
    loginLength then
    { ok := false, state := s, extent := sizeofLogonChallenge }
  else
    let build := uint16At memory 11
    { ok := true
      state := { s with
        build
        expversion := expversionOf E build
        os := uint32At memory 17
        queries := s.queries ++ [query (bytesAt memory sizeofLogonChallenge loginLength)] }
      extent := sizeofLogonChallenge + loginLength }

/-- `HandleLogonChallenge`. -/
def handleLogonChallenge : AuthState σ → List UInt8 → HandlerResult σ :=
  handleChallenge E .logonChallenge

/-- `HandleReconnectChallenge`. -/
def handleReconnectChallenge : AuthState σ → List UInt8 → HandlerResult σ :=
  handleChallenge E .reconnectChallenge

/-- The client sent a security token. -/
def sentToken (memory : List UInt8) : Bool :=
  byteAt memory 74 &&& 0x04 ≠ 0

/-- The security token behind the fixed part of `AUTH_LOGON_PROOF`. -/
def token (memory : List UInt8) : List UInt8 :=
  bytesAt memory (sizeofLogonProof + 1) (byteAt memory sizeofLogonProof).toNat

/-- The token check of `HandleLogonProof`: whether it succeeds, the bytes it marks as read, and
the secret that it leaves. -/
def checkToken (s : AuthState σ) (memory : List UInt8) : Bool × ℕ × Option (List UInt8) :=
  match s.totpSecret with
  | some secret =>
    if sentToken memory then
      (E.validateToken secret (atoi (token memory)), 1 + (byteAt memory sizeofLogonProof).toNat,
        some (List.replicate secret.length 0))
    else (false, 0, some secret)
  | none => (!sentToken memory, 0, none)

/-- The public key, the proof and the version proof of `AUTH_LOGON_PROOF`. -/
def publicKey (memory : List UInt8) : List UInt8 :=
  bytesAt memory 1 32

def clientProof (memory : List UInt8) : List UInt8 :=
  bytesAt memory 33 20

def crcHash (memory : List UInt8) : List UInt8 :=
  bytesAt memory 53 20

section Take

variable {memory : List UInt8} {n : ℕ} (h : sizeofLogonProof ≤ n)

include h

theorem sentToken_take : sentToken (memory.take n) = sentToken memory := by
  rw [sentToken, sentToken, byteAt_take (Nat.lt_of_lt_of_le (by decide) h)]

theorem publicKey_take : publicKey (memory.take n) = publicKey memory :=
  bytesAt_take (Nat.le_trans (by decide) h)

theorem clientProof_take : clientProof (memory.take n) = clientProof memory :=
  bytesAt_take (Nat.le_trans (by decide) h)

theorem crcHash_take : crcHash (memory.take n) = crcHash memory :=
  bytesAt_take (Nat.le_trans (by decide) h)

end Take

/-- The part of `HandleLogonProof` for a proof that `VerifyChallengeResponse` accepts. -/
def acceptedProof (s : AuthState σ) (memory key : List UInt8) : HandlerResult σ :=
  let check := checkToken E s memory
  let extent := sizeofLogonProof + check.2.1
  let s := { s with sessionKey := key, totpSecret := check.2.2 }
  if !check.1 then
    { ok := true, state := s, reply := [[0x01, 0x04, 0, 0]], consumed := check.2.1, extent }
  else if !verifyVersion E s (publicKey memory) (crcHash memory) false then
    { ok := true, state := s, reply := [[0x01, 0x09]], consumed := check.2.1, extent }
  else
    let verifier := E.getSessionVerifier (publicKey memory) (clientProof memory) key
    { ok := true
      state := { s with queries := s.queries ++ [.logonProof verifier] }
      consumed := check.2.1
      extent }

/-- The part of `HandleLogonProof` for a wrong password. -/
def rejectedProof (s : AuthState σ) : HandlerResult σ :=
  let failedLogins := s.accountInfo.failedLogins + if E.maxWrongPassCount > 0 then 1 else 0
  { ok := true
    state := { s with accountInfo := { s.accountInfo with failedLogins } }
    reply := [[0x01, 0x04, 0, 0]]
    extent := sizeofLogonProof }

/-- `HandleLogonProof`. -/
def handleLogonProof (s : AuthState σ) (memory : List UInt8) : HandlerResult σ :=
  let s := { s with status := .closed }
  if s.expversion = noValidExpFlag then { ok := false, state := s, extent := 0 }
  else
    match s.srp6 with
    -- the source uses the empty optional, which does not happen (`authenticated_of_status`)
    | none => { ok := false, state := s, extent := 0 }
    | some srp6 =>
      let s := { s with srp6 := some { srp6 with used := true } }
      match E.verifyChallengeResponse srp6.data (publicKey memory) (clientProof memory) with
      | some key => acceptedProof E s memory key
      | none => rejectedProof E s

/-- The digest that `HandleReconnectProof` compares with `R2`. -/
def reconnectDigest (s : AuthState σ) (memory : List UInt8) : List UInt8 :=
  E.sha1 (s.accountInfo.login ++ bytesAt memory 1 16 ++ s.reconnectProof ++ s.sessionKey)

/-- `HandleReconnectProof`. -/
def handleReconnectProof (s : AuthState σ) (memory : List UInt8) : HandlerResult σ :=
  let s := { s with status := .closed }
  if s.accountInfo.login = [] then { ok := false, state := s, extent := 0 }
  else if reconnectDigest E s memory = bytesAt memory 17 20 then
    if !verifyVersion E s (bytesAt memory 1 16) (bytesAt memory 37 20) true then
      { ok := true, state := s, reply := [[0x03, 0x09]], extent := sizeofReconnectProof }
    else
      { ok := true, state := { s with status := .authed }, reply := [[0x03, 0x00, 0, 0]]
        extent := sizeofReconnectProof }
  else { ok := false, state := s, extent := sizeofReconnectProof }

/-- `HandleRealmList`. -/
def handleRealmList (s : AuthState σ) : HandlerResult σ :=
  { ok := true
    state := { s with queries := s.queries ++ [.realmList], status := .waitingForRealmList }
    extent := 0 }

/-- `HandleXferAccept`, `HandleXferResume` and `HandleXferCancel` only close the connection. -/
def handleXfer (s : AuthState σ) : HandlerResult σ :=
  { ok := false, state := s, extent := 0 }

/-- `AuthHandler::handler`. -/
def runHandler (cmd : AuthCmd) (s : AuthState σ) (memory : List UInt8) : HandlerResult σ :=
  match cmd with
  | .logonChallenge => handleLogonChallenge E s memory
  | .logonProof => handleLogonProof E s memory
  | .reconnectChallenge => handleReconnectChallenge E s memory
  | .reconnectProof => handleReconnectProof E s memory
  | .realmList => handleRealmList s
  | .xferAccept => handleXfer s
  | .xferResume => handleXfer s
  | .xferCancel => handleXfer s

theorem status_handleChallenge (query : List UInt8 → Query) (s : AuthState σ)
    (memory : List UInt8) :
    (s.handleChallenge E query memory).state.status = .closed := by
  simp only [handleChallenge]
  split_ifs <;> rfl

variable (s : AuthState σ)

variable (memory : List UInt8)

theorem status_acceptedProof (key : List UInt8) :
    (s.acceptedProof E memory key).state.status = s.status := by
  simp only [acceptedProof]
  split_ifs <;> rfl

theorem status_handleLogonProof : (s.handleLogonProof E memory).state.status = .closed := by
  simp only [handleLogonProof]
  split_ifs
  · rfl
  · split
    · rfl
    · split
      · exact status_acceptedProof E _ memory _
      · rfl

theorem status_handleReconnectProof :
    (s.handleReconnectProof E memory).state.status = .closed ∨
      (s.handleReconnectProof E memory).state.status = .authed := by
  simp only [handleReconnectProof]
  split_ifs
  · exact Or.inl rfl
  · exact Or.inl rfl
  · exact Or.inr rfl
  · exact Or.inl rfl

/-! ### Query callbacks -/

/-- `AccountInfo::LoadResult`. -/
def loadResult (account : AccountInfo) : AccountInfo :=
  { account with login := E.toUpperOnlyLatin account.login }

/-- The locks and bans that `LogonChallengeCallback` checks, with their error codes. -/
def refusal (account : AccountInfo) : Option UInt8 :=
  let ipCountry := E.ipCountry.getD ""
  if account.isLockedToIP ∧ account.lastIP ≠ E.ipAddress then some 0x10
  else if !account.isLockedToIP ∧ ¬ (account.lockCountry = "" ∨ account.lockCountry = "00") ∧
      ipCountry ≠ "" ∧ ipCountry ≠ account.lockCountry then some 0x19
  else if account.isBanned then some (if account.isPermanenetlyBanned then 0x03 else 0x0C)
  else none

/-- `VersionChallenge`. -/
def versionChallenge : List UInt8 :=
  [0xBA, 0xA3, 0x1E, 0x99, 0xA0, 0x0B, 0x21, 0x57, 0xFC, 0x37, 0x3F, 0xB3, 0x69, 0xCD, 0xD2, 0xF1]

/-- The end of `LogonChallengeCallback`, for an account that may log in. -/
def offerProof (s : AuthState σ) (row : LogonChallengeRow) : AuthState σ × List UInt8 :=
  let srp6 : Srp6 σ := { data := E.newSrp6 s.accountInfo.login row.salt row.verifier }
  let s := { s with srp6 := some srp6 }
  if isAcceptedClientBuild E s.build then
    let securityFlags := if row.totpSecret.isSome then [0x04, 0x01] else [0x00]
    ({ s with status := .logonProof },
      [0x00, 0x00, 0x00] ++ E.srp6Greeting srp6.data ++ versionChallenge ++ securityFlags)
  else (s, [0x00, 0x00, 0x09])

/-- `LogonChallengeCallback`. -/
def logonChallengeCallback (s : AuthState σ) (result : Option LogonChallengeRow) :
    AuthState σ × List UInt8 :=
  match result with
  | none => (s, [0x00, 0x00, 0x04])
  | some row =>
    let s := { s with accountInfo := loadResult E row.account }
    match refusal E s.accountInfo with
    | some error => (s, [0x00, 0x00, error])
    | none =>
      match row.totpSecret with
      | none => offerProof E s row
      | some secret =>
        match E.decryptTotpSecret secret with
        | none => ({ s with totpSecret := some secret }, [0x00, 0x00, 0x08])
        | some secret => offerProof E { s with totpSecret := some secret } row

/-- `ReconnectChallengeCallback`. -/
def reconnectChallengeCallback (s : AuthState σ) (result : Option ReconnectChallengeRow) :
    AuthState σ × List UInt8 :=
  match result with
  | none => (s, [0x02, 0x04])
  | some row =>
    ({ s with
      accountInfo := loadResult E row.account
      sessionKey := row.sessionKey
      reconnectProof := E.randomBytes
      status := .reconnectProof }, [0x02, 0x00] ++ E.randomBytes ++ versionChallenge)

/-- The callback of the update in `HandleLogonProof`. -/
def logonProofCallback (s : AuthState σ) (sessionVerifier : List UInt8) :
    AuthState σ × List UInt8 :=
  let packet := if s.expversion &&& postBCExpFlag ≠ 0 then
      [0x01, 0x00] ++ sessionVerifier ++ [0x00, 0x00, 0x80, 0x00] ++ List.replicate 6 0
    else [0x01, 0x00] ++ sessionVerifier ++ List.replicate 4 0
  ({ s with status := .authed }, packet)

/-- `RealmListCallback`. -/
def realmListCallback (s : AuthState σ) (characterCounts : List (ℕ × ℕ)) :
    AuthState σ × List UInt8 :=
  ({ s with status := .authed }, E.realmListPacket characterCounts)

/-- The callback of a query. -/
def callback (s : AuthState σ) : (q : Query) → q.Answer → AuthState σ × List UInt8
  | .logonChallenge _, result => logonChallengeCallback E s result
  | .reconnectChallenge _, result => reconnectChallengeCallback E s result
  | .logonProof sessionVerifier, _ => logonProofCallback s sessionVerifier
  | .realmList, characterCounts => realmListCallback E s characterCounts

end AuthState

/-! ### Sessions -/

/-- A command that was handled: the state before, and the bytes of the command. -/
structure HandledCmd (σ : Type) where
  cmd : AuthCmd
  before : AuthState σ
  bytes : List UInt8

/-- `AuthSession`. The last three fields record the commands handled and the rows that answered
the queries of the two challenge commands. -/
structure AuthSession (σ : Type) where
  socket : Socket := {}
  state : AuthState σ := {}
  handled : List (HandledCmd σ) := []
  logonRow : Option LogonChallengeRow := none
  reconnectRow : Option ReconnectChallengeRow := none

namespace AuthSession

variable {σ : Type} (E : AuthEnv σ)

/-- The read buffer of the base class. -/
def readBuffer (a : AuthSession σ) : MessageBuffer :=
  a.socket.readBuffer

/-- `GetReadBuffer().ReadCompleted(bytes)`. -/
def readCompleted (a : AuthSession σ) (bytes : ℕ) : AuthSession σ :=
  { a with socket := { a.socket with readBuffer := a.socket.readBuffer.readCompleted bytes } }

/-- `CloseSocket` of the base class. -/
def closeSocket (a : AuthSession σ) : AuthSession σ :=
  { a with socket := a.socket.closeSocket }

/-- `SendPacket`. -/
def sendPacket (a : AuthSession σ) (packet : List UInt8) : AuthSession σ :=
  if a.socket.isOpen ∧ packet ≠ [] then
    { a with socket := a.socket.queuePacket ((MessageBuffer.ofSize packet.length).write packet) }
  else a

/-- The size that `ReadHandler` takes for the command at the read pointer. -/
def commandSize (h : AuthHandler) (memory : List UInt8) : ℕ :=
  h.packetSize + if h.cmd.isChallenge then uint16At memory 2 else 0

/-- Run the handler of a command of the given size. -/
def handle (cmd : AuthCmd) (size : ℕ) (a : AuthSession σ) : Flow × AuthSession σ :=
  let memory := a.readBuffer.fromReadPointer
  let r := a.state.runHandler E cmd memory
  let a := { a with
    state := r.state
    handled := a.handled ++ [⟨cmd, a.state, memory.take (size + r.consumed)⟩] }
  let a := (r.reply.foldl sendPacket a).readCompleted r.consumed
  if r.ok then (.next, a.readCompleted size) else (.stop, a.closeSocket)

/-- The loop body of `ReadHandler`. -/
def readBody (a : AuthSession σ) : Flow × AuthSession σ :=
  let memory := a.readBuffer.fromReadPointer
  match findHandler (byteAt memory 0) with
  | none => (.stop, a.closeSocket)
  | some h =>
    if a.state.status ≠ h.status then (.stop, a.closeSocket)
    else if a.readBuffer.activeSize < h.packetSize then (.wait, a)
    else if h.cmd.isChallenge ∧ commandSize h memory > maxAcceptedChallengeSize then
      (.stop, a.closeSocket)
    else if a.readBuffer.activeSize < commandSize h memory then (.wait, a)
    else a.handle E h.cmd (commandSize h memory)

/-- The loop of `ReadHandler`, for at most `fuel` rounds. -/
def readLoop : ℕ → AuthSession σ → ReadCallbackResult × AuthSession σ
  | 0, a => (.keepReading, a)
  | fuel + 1, a =>
    if a.readBuffer.activeSize > 0 then
      let r := a.readBody E
      match r.1 with
      | .next => readLoop fuel r.2
      | .wait => (.keepReading, r.2)
      | .stop => (.stop, r.2)
    else (.keepReading, a)

/-- `ReadHandler`. A command that is handled moves the status on, and only `RECONNECT_PROOF` and
`REALM_LIST` can follow on each other: three rounds are always enough (`readLoop_three`). -/
def readHandler (a : AuthSession σ) : ReadCallbackResult × AuthSession σ :=
  a.readLoop E 3

/-- The completion of a read of `chunk`, as long as reads are requested. -/
def onRead (a : AuthSession σ) (chunk : List UInt8) : AuthSession σ :=
  if a.socket.isOpen then
    let r := a.socket.readHandlerInternal false chunk
    let a := { a with socket := r.2 }
    if r.1 then
      let h := a.readHandler E
      match h.1 with
      | .keepReading => { h.2 with socket := h.2.socket.asyncRead }
      | .stop => h.2
    else a
  else a

/-- The callback of the `i`-th pending query, when its answer has come. -/
def onAnswer (a : AuthSession σ) (i : ℕ) (answer : (q : Query) → q.Answer) : AuthSession σ :=
  match a.state.queries[i]? with
  | none => a
  | some q =>
    let r := AuthState.callback E { a.state with queries := a.state.queries.eraseIdx i } q
      (answer q)
    let logonRow := match q, answer q with
      | .logonChallenge _, row => row
      | _, _ => a.logonRow
    let reconnectRow := match q, answer q with
      | .reconnectChallenge _, row => row
      | _, _ => a.reconnectRow
    sendPacket { a with state := r.1, logonRow, reconnectRow } r.2

/-- What happens to a session: bytes arrive, a read fails, the timeout runs out, or a query is
answered. -/
inductive Event where
  | read (chunk : List UInt8)
  | readError
  | timeout
  | answer (i : ℕ) (answer : (q : Query) → q.Answer)

/-- One step. -/
def step (a : AuthSession σ) : Event → AuthSession σ
  | .read chunk => a.onRead E chunk
  | .readError => a.closeSocket
  | .timeout => a.closeSocket
  | .answer i answer => a.onAnswer E i answer

/-! ### The loop ends -/

/-- How many more commands can be handled in a status. -/
def rank : AuthStatus → ℕ
  | .reconnectProof => 2
  | .challenge => 1
  | .logonProof => 1
  | .authed => 1
  | .waitingForRealmList => 0
  | .xfer => 0
  | .closed => 0

variable (a : AuthSession σ)

/-- Sending a packet only touches the socket. -/
theorem sendPacket_frame (packet : List UInt8) :
    ∃ socket, a.sendPacket packet = { a with socket } ∧ socket.readBuffer = a.socket.readBuffer ∧
      socket.openState = a.socket.openState := by
  rw [sendPacket]
  split_ifs
  · exact ⟨_, rfl, rfl, rfl⟩
  · exact ⟨_, rfl, rfl, rfl⟩

theorem foldl_sendPacket_frame (packets : List (List UInt8)) :
    ∃ socket, packets.foldl sendPacket a = { a with socket } ∧
      socket.readBuffer = a.socket.readBuffer ∧ socket.openState = a.socket.openState := by
  induction packets generalizing a with
  | nil => exact ⟨_, rfl, rfl, rfl⟩
  | cons packet packets ih =>
    obtain ⟨socket, heq, hread, hstate⟩ := a.sendPacket_frame packet
    obtain ⟨socket', heq', hread', hstate'⟩ := ih (a.sendPacket packet)
    rw [heq] at heq' hread' hstate'
    rw [foldl_cons, heq]
    exact ⟨socket', heq', hread'.trans hread, hstate'.trans hstate⟩

/-- A handler that lets the connection go on lowers the rank of the status. -/
theorem rank_runHandler {h : AuthHandler} (hh : h ∈ authHandlers) {s : AuthState σ}
    (hstatus : s.status = h.status) {memory : List UInt8}
    (hok : (s.runHandler E h.cmd memory).ok = true) :
    rank (s.runHandler E h.cmd memory).state.status < rank s.status := by
  rw [hstatus]
  simp only [authHandlers, mem_cons, not_mem_nil, or_false] at hh
  rcases hh with rfl | rfl | rfl | rfl | rfl | rfl | rfl | rfl
  · rw [AuthState.runHandler, AuthState.handleLogonChallenge, AuthState.status_handleChallenge]
    exact Nat.zero_lt_one
  · rw [AuthState.runHandler, AuthState.status_handleLogonProof]
    exact Nat.zero_lt_one
  · rw [AuthState.runHandler, AuthState.handleReconnectChallenge, AuthState.status_handleChallenge]
    exact Nat.zero_lt_one
  · rw [AuthState.runHandler]
    rcases s.status_handleReconnectProof E memory with heq | heq
    · rw [heq]
      exact Nat.zero_lt_two
    · rw [heq]
      exact Nat.one_lt_two
  · exact Nat.zero_lt_one
  · exact absurd hok Bool.false_ne_true
  · exact absurd hok Bool.false_ne_true
  · exact absurd hok Bool.false_ne_true

/-- What a round does: it closes the connection or waits, or it runs the handler of a command
that fits the status. -/
theorem readBody_cases :
    (a.readBody E = (.stop, a.closeSocket)) ∨ (a.readBody E = (.wait, a)) ∨
      ∃ h ∈ authHandlers, findHandler (byteAt a.readBuffer.fromReadPointer 0) = some h ∧
        a.state.status = h.status ∧
        ¬ (h.cmd.isChallenge ∧
          commandSize h a.readBuffer.fromReadPointer > maxAcceptedChallengeSize) ∧
        commandSize h a.readBuffer.fromReadPointer ≤ a.readBuffer.activeSize ∧
        a.readBody E = a.handle E h.cmd (commandSize h a.readBuffer.fromReadPointer) := by
  rw [readBody]
  cases hfind : findHandler (byteAt a.readBuffer.fromReadPointer 0) with
  | none => exact Or.inl rfl
  | some h =>
    dsimp only
    split_ifs with hstatus hinitial hlarge hsize
    · exact Or.inl rfl
    · exact Or.inr (Or.inl rfl)
    · exact Or.inl rfl
    · exact Or.inr (Or.inl rfl)
    · exact Or.inr (Or.inr ⟨h, mem_of_findHandler hfind, rfl, not_not.mp hstatus, hlarge,
        Nat.le_of_not_lt hsize, rfl⟩)

/-- The state after a handled command. -/
theorem handle_frame (cmd : AuthCmd) (size : ℕ) (a : AuthSession σ) :
    (a.handle E cmd size).2.state = (a.state.runHandler E cmd a.readBuffer.fromReadPointer).state ∧
      (a.handle E cmd size).2.handled = a.handled ++
      [⟨cmd, a.state, a.readBuffer.fromReadPointer.take
        (size + (a.state.runHandler E cmd a.readBuffer.fromReadPointer).consumed)⟩] ∧
      (a.handle E cmd size).2.logonRow = a.logonRow ∧
      (a.handle E cmd size).2.reconnectRow = a.reconnectRow := by
  simp only [handle]
  set r := a.state.runHandler E cmd a.readBuffer.fromReadPointer
  obtain ⟨socket, heq, -, -⟩ := foldl_sendPacket_frame (σ := σ) { a with
    state := r.state
    handled := a.handled ++
      [⟨cmd, a.state, a.readBuffer.fromReadPointer.take (size + r.consumed)⟩] }
    r.reply
  rw [heq]
  split_ifs <;> exact ⟨rfl, rfl, rfl, rfl⟩

theorem rank_readBody {a : AuthSession σ} (h : (a.readBody E).1 = .next) :
    rank (a.readBody E).2.state.status < rank a.state.status := by
  rcases a.readBody_cases E with heq | heq | ⟨hd, hmem, -, hstatus, -, -, heq⟩
  · rw [heq] at h
    exact absurd h Flow.noConfusion
  · rw [heq] at h
    exact absurd h Flow.noConfusion
  · obtain ⟨hstate, -⟩ := handle_frame E hd.cmd (commandSize hd a.readBuffer.fromReadPointer) a
    rw [heq] at h ⊢
    rw [hstate]
    refine rank_runHandler E hmem hstatus ?_
    by_contra hok
    simp only [handle, hok] at h
    exact absurd h Flow.noConfusion

end AuthSession

end IscServer
