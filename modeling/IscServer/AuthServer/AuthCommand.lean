import IscServer.AuthServer.AuthProof
import IscServer.Library.Incremental

/-!
# Auth Commands and What Their Handlers Read

`AuthSession::ReadHandler` waits until a command has arrived completely, but its idea of a complete
command leaves out the security token: `HandleLogonProof` reads the length byte and the token
behind the fixed part of the packet and moves the read cursor over them, whether they have arrived
or not. The handlers of the two challenges read the length of the login name even if the size of
the packet leaves no room for it.

A round of the loop is `Covered` when the bytes that its handler looks at have arrived.

## Main results

* `parse_incremental`: commands, with their tokens, are parsed incrementally.
* `readsReceived_iff`: **a round stays within the received data exactly when it is covered.**
-/

namespace IscServer

open List

open Incremental

namespace AuthSession

variable {σ : Type} (E : AuthEnv σ)

/-! ### Commands in a byte stream -/

/-- `HandleLogonProof` reads a token: the proof is accepted, the token flag is set and the account
has a secret. -/
def readsToken (s : AuthState σ) (bytes : List UInt8) : Bool :=
  s.expversion ≠ AuthState.noValidExpFlag ∧
    (s.srp6.bind fun srp6 => E.verifyChallengeResponse srp6.data (AuthState.publicKey bytes)
      (AuthState.clientProof bytes)).isSome ∧
    AuthState.sentToken bytes ∧ s.totpSecret.isSome

/-- The length of a command with its token. -/
def commandLength (s : AuthState σ) (hd : AuthHandler) (bytes : List UInt8) : ℕ :=
  if hd.cmd = .logonProof ∧ readsToken E s bytes then
    sizeofLogonProof + 1 + (byteAt bytes sizeofLogonProof).toNat
  else commandSize hd bytes

/-- The verdict on the bytes of a command that fits the status. -/
def parseCommand (s : AuthState σ) (hd : AuthHandler) (bytes : List UInt8) : Verdict :=
  if bytes.length < hd.packetSize then .more
  else if hd.cmd.isChallenge ∧ commandSize hd bytes > maxAcceptedChallengeSize then .reject
  else if bytes.length < commandSize hd bytes then .more
  else if bytes.length < commandLength E s hd bytes then .more
  else .accept (commandLength E s hd bytes)

/-- The handler for the status and the first byte of a command. -/
def findCommand (s : AuthState σ) (bytes : List UInt8) : Option AuthHandler :=
  (findHandler (byteAt bytes 0)).filter fun hd => s.status = hd.status

/-- The verdict on the bytes received. -/
def parse (s : AuthState σ) (bytes : List UInt8) : Verdict :=
  if bytes = [] then .more
  else
    match findCommand s bytes with
    | none => .reject
    | some hd => parseCommand E s hd bytes

variable {s : AuthState σ} {bytes : List UInt8} {hd : AuthHandler}

theorem mem_of_findCommand (h : findCommand s bytes = some hd) :
    hd ∈ authHandlers ∧ s.status = hd.status := by
  obtain ⟨hfind, hstatus⟩ := Option.filter_eq_some_iff.mp h
  exact ⟨mem_of_findHandler hfind, of_decide_eq_true hstatus⟩

/-- The fixed part of a challenge command has the length field in it, and that of a logon proof
is all but the token. -/
theorem packetSize_of_mem : ∀ hd ∈ authHandlers, 0 < hd.packetSize ∧
    (hd.cmd.isChallenge = true → hd.packetSize = challengeInitialSize) ∧
    (hd.cmd = .logonProof → hd.packetSize = sizeofLogonProof ∧ hd.cmd.isChallenge = false) := by
  decide

variable {n : ℕ}

theorem commandSize_take (hmem : hd ∈ authHandlers) (bytes : List UInt8) (hn : hd.packetSize ≤ n) :
    commandSize hd (bytes.take n) = commandSize hd bytes := by
  obtain ⟨-, hchallenge, -⟩ := packetSize_of_mem hd hmem
  rw [commandSize, commandSize]
  split_ifs with hc
  · rw [hchallenge hc, challengeInitialSize] at hn
    rw [uint16At_take (by omega)]
  · rfl

theorem readsToken_take (hn : sizeofLogonProof ≤ n) :
    readsToken E s (bytes.take n) = readsToken E s bytes := by
  rw [readsToken, readsToken, AuthState.publicKey_take hn, AuthState.clientProof_take hn,
    AuthState.sentToken_take hn]

section

variable (hmem : hd ∈ authHandlers)
include hmem

theorem commandSize_le_commandLength (s : AuthState σ) (bytes : List UInt8) : commandSize hd bytes ≤ commandLength E s hd bytes := by
  obtain ⟨-, -, hproof⟩ := packetSize_of_mem hd hmem
  rw [commandLength]
  split_ifs with hreads
  · obtain ⟨hsize, hnot⟩ := hproof hreads.1
    rw [commandSize, hsize, hnot, if_neg Bool.false_ne_true]
    omega
  · exact Nat.le_refl _

/-- The length of a command is settled once as many bytes are there. -/
theorem commandLength_take (bytes : List UInt8) (hn : hd.packetSize ≤ n)
    (hlen : commandLength E s hd bytes ≤ n ∨ commandLength E s hd (bytes.take n) ≤ n) :
    commandLength E s hd (bytes.take n) = commandLength E s hd bytes := by
  obtain ⟨-, -, hproof⟩ := packetSize_of_mem hd hmem
  rw [commandLength, commandLength] at hlen ⊢
  by_cases hcmd : hd.cmd = .logonProof
  · rw [(hproof hcmd).1] at hn
    rw [readsToken_take E hn] at hlen ⊢
    by_cases hreads : readsToken E s bytes = true
    · simp only [hcmd, hreads, and_self, if_true] at hlen ⊢
      rw [byteAt_take (by omega)]
    · simp only [hcmd, hreads]
      exact commandSize_take hmem bytes (by rw [(hproof hcmd).1]; exact hn)
  · simp only [hcmd]
    exact commandSize_take hmem bytes hn

/-- The verdict on a command does not change with further bytes. -/
theorem parseCommand_stable (bytes : List UInt8) (hn : n ≤ bytes.length)
    (hne : parseCommand E s hd (bytes.take n) ≠ .more) :
    parseCommand E s hd bytes = parseCommand E s hd (bytes.take n) := by
  have hlen : (bytes.take n).length = n := length_take_of_le hn
  rw [parseCommand, hlen] at hne
  have hfixed : ¬ n < hd.packetSize := by
    intro hlt
    rw [if_pos hlt] at hne
    exact hne rfl
  have hsame := commandSize_take hmem bytes (Nat.le_of_not_lt hfixed)
  rw [if_neg hfixed, hsame] at hne
  rw [parseCommand, if_neg (by omega), parseCommand, hlen, if_neg hfixed, hsame]
  by_cases hlarge : hd.cmd.isChallenge ∧ commandSize hd bytes > maxAcceptedChallengeSize
  · rw [if_pos hlarge, if_pos hlarge]
  · rw [if_neg hlarge] at hne
    have hsize : ¬ n < commandSize hd bytes := by
      intro hlt
      rw [if_pos hlt] at hne
      exact hne rfl
    rw [if_neg hsize] at hne
    have hlength : ¬ n < commandLength E s hd (bytes.take n) := by
      intro hlt
      rw [if_pos hlt] at hne
      exact hne rfl
    have hsame' := commandLength_take E hmem bytes (Nat.le_of_not_lt hfixed)
      (Or.inr (Nat.le_of_not_lt hlength))
    rw [hsame'] at hlength
    rw [if_neg hlarge, if_neg hlarge, if_neg (by omega), if_neg hsize, hsame', if_neg (by omega),
      if_neg hlength]

/-- A command is accepted as soon as it is complete. -/
theorem parseCommand_early {k : ℕ} (hn : n ≤ bytes.length)
    (hk : parseCommand E s hd bytes = .accept k) (hle : k ≤ n) :
    parseCommand E s hd (bytes.take n) ≠ .more := by
  have hlen : (bytes.take n).length = n := length_take_of_le hn
  rw [parseCommand] at hk
  split_ifs at hk with hfixed hlarge hsize hlength
  obtain rfl : commandLength E s hd bytes = k := Verdict.accept.inj hk
  have hmin := commandSize_le_commandLength E hmem s bytes
  have hfixed' : hd.packetSize ≤ n := by
    have : hd.packetSize ≤ commandSize hd bytes := Nat.le_add_right _ _
    omega
  have hsame := commandSize_take hmem bytes hfixed'
  have hsame' := commandLength_take E hmem bytes hfixed' (Or.inl hle)
  rw [parseCommand, hlen, if_neg (by omega), hsame, if_neg hlarge, if_neg (by omega), hsame',
    if_neg (by omega)]
  exact Verdict.noConfusion

/-- The bounds of an accepted command. -/
theorem parseCommand_bounds {k : ℕ} (hk : parseCommand E s hd bytes = .accept k) :
    k = commandLength E s hd bytes ∧ 0 < k ∧ k ≤ bytes.length := by
  obtain ⟨hpos, -, -⟩ := packetSize_of_mem hd hmem
  have hmin := commandSize_le_commandLength E hmem s bytes
  have hsize : hd.packetSize ≤ commandSize hd bytes := Nat.le_add_right _ _
  rw [parseCommand] at hk
  split_ifs at hk with h₁ h₂ h₃ h₄
  have heq := Verdict.accept.inj hk
  exact ⟨heq.symm, by omega, by omega⟩

end

section

variable (s : AuthState σ)

/-- The handler is settled with the first byte. -/
theorem findCommand_append {bs : List UInt8} (hbs : bs ≠ []) (cs : List UInt8) :
    findCommand s (bs ++ cs) = findCommand s bs := by
  have hhead : byteAt (bs ++ cs) 0 = byteAt bs 0 := by
    have htake : (bs ++ cs).take bs.length = bs := take_left
    rw [← byteAt_take (length_pos_iff.mpr hbs), htake]
  rw [findCommand, findCommand, hhead]

/-- **Commands are parsed incrementally.** -/
theorem parse_incremental : IsIncremental (parse E s) where
  nil := if_pos rfl
  stable bs cs hne := by
    by_cases hbs : bs = []
    · rw [hbs, parse, if_pos rfl] at hne
      exact absurd rfl hne
    · have hbs' : bs ++ cs ≠ [] := append_ne_nil_of_left_ne_nil hbs _
      rw [parse, if_neg hbs] at hne
      rw [parse, if_neg hbs', parse, if_neg hbs, findCommand_append s hbs]
      cases hfind : findCommand s bs with
      | none => rfl
      | some hd =>
        rw [hfind] at hne
        have hstable := parseCommand_stable E (mem_of_findCommand hfind).1 (bs ++ cs)
          (n := bs.length) (by simp) (by rw [take_left]; exact hne)
        rwa [take_left] at hstable
  bounds bs n h := by
    rw [parse] at h
    split_ifs at h with hbs
    cases hfind : findCommand s bs with
    | none => simp [hfind] at h
    | some hd =>
      rw [hfind] at h
      exact (parseCommand_bounds E (mem_of_findCommand hfind).1 h).2
  early bs cs n h hle := by
    rw [parse] at h
    split_ifs at h with hbs'
    cases hfind : findCommand s (bs ++ cs) with
    | none => simp [hfind] at h
    | some hd =>
      rw [hfind] at h
      have hmem := (mem_of_findCommand hfind).1
      have hpos := (parseCommand_bounds E hmem h).2.1
      have hbs : bs ≠ [] := by
        intro hnil
        rw [hnil, length_nil] at hle
        omega
      have hearly := parseCommand_early E hmem (n := bs.length) (by simp) h hle
      rw [take_left] at hearly
      rw [findCommand_append s hbs] at hfind
      rw [parse, if_neg hbs, hfind]
      exact hearly

/-! ### What the handlers look at -/

/-- The bytes behind the fixed part that the token check marks as read. -/
theorem acceptedProof_consumed (memory key : List UInt8) :
    (s.acceptedProof E memory key).consumed = (s.checkToken E memory).2.1 ∧
      (s.acceptedProof E memory key).extent = sizeofLogonProof + (s.checkToken E memory).2.1 ∧
      (s.acceptedProof E memory key).ok = true := by
  simp only [AuthState.acceptedProof]
  split_ifs <;> exact ⟨rfl, rfl, rfl⟩

theorem checkToken_consumed (memory : List UInt8) :
    (s.checkToken E memory).2.1 = if AuthState.sentToken memory ∧ s.totpSecret.isSome then
      1 + (byteAt memory sizeofLogonProof).toNat else 0 := by
  cases hsecret : s.totpSecret with
  | none => simp [AuthState.checkToken, hsecret]
  | some secret =>
    simp only [AuthState.checkToken]
    split_ifs with hsent <;> simp_all

/-- `HandleLogonProof` marks the token as read exactly when it reads one. -/
theorem handleLogonProof_consumed (memory : List UInt8) :
    (s.handleLogonProof E memory).consumed = (if readsToken E s memory then
        1 + (byteAt memory sizeofLogonProof).toNat else 0) ∧
      (s.handleLogonProof E memory).extent ≤
        sizeofLogonProof + (s.handleLogonProof E memory).consumed ∧
      (readsToken E s memory = true → (s.handleLogonProof E memory).extent =
        sizeofLogonProof + (s.handleLogonProof E memory).consumed ∧
        (s.handleLogonProof E memory).ok = true) := by
  by_cases hexp : s.expversion = AuthState.noValidExpFlag
  · simp [AuthState.handleLogonProof, readsToken, hexp]
  · cases hsrp6 : s.srp6 with
    | none => simp [AuthState.handleLogonProof, readsToken, hsrp6]
    | some srp6 =>
      cases hverify : E.verifyChallengeResponse srp6.data (AuthState.publicKey memory)
          (AuthState.clientProof memory) with
      | none =>
        simp [AuthState.handleLogonProof, readsToken, hexp, hsrp6, hverify, AuthState.rejectedProof]
      | some key =>
        have heq : s.handleLogonProof E memory = AuthState.acceptedProof E
            { s with status := .closed, srp6 := some { srp6 with used := true } } memory
              key := by
          simp only [AuthState.handleLogonProof, if_neg hexp, hsrp6, hverify]
        have hreads : readsToken E s memory =
            decide (AuthState.sentToken memory = true ∧ s.totpSecret.isSome = true) := by
          simp [readsToken, hexp, hsrp6, hverify]
        obtain ⟨hconsumed, hextent, hok⟩ := acceptedProof_consumed E
          { s with status := .closed, srp6 := some { srp6 with used := true } } memory key
        rw [heq, hextent, ← hconsumed, hreads]
        refine ⟨?_, Nat.le_refl _, fun _ => ⟨rfl, hok⟩⟩
        rw [hconsumed, checkToken_consumed]
        simp only [decide_eq_true_eq]

end

/-- The bytes that `ReadHandler` and the handler mark as read are the command with its token. -/
theorem commandSize_add_consumed (hmem : hd ∈ authHandlers) (s : AuthState σ)
    (memory : List UInt8) :
    commandSize hd memory + (s.runHandler E hd.cmd memory).consumed =
      commandLength E s hd memory := by
  obtain ⟨-, -, hproof⟩ := packetSize_of_mem hd hmem
  rw [commandLength]
  by_cases hcmd : hd.cmd = .logonProof
  · obtain ⟨hsize, hnot⟩ := hproof hcmd
    obtain ⟨hconsumed, -, -⟩ := handleLogonProof_consumed E s memory
    have hsize' : commandSize hd memory = sizeofLogonProof := by
      rw [commandSize, hsize, hnot, if_neg Bool.false_ne_true, Nat.add_zero]
    rw [hsize', hcmd, AuthState.runHandler, hconsumed]
    simp only [true_and]
    split_ifs
    · rw [Nat.add_assoc]
    · rfl
  · have hzero : (s.runHandler E hd.cmd memory).consumed = 0 := by
      cases hc : hd.cmd with
      | logonProof => exact absurd hc hcmd
      | logonChallenge =>
        simp only [AuthState.runHandler, AuthState.handleLogonChallenge, AuthState.handleChallenge]
        split_ifs <;> rfl
      | reconnectChallenge =>
        simp only [AuthState.runHandler, AuthState.handleReconnectChallenge,
          AuthState.handleChallenge]
        split_ifs <;> rfl
      | reconnectProof =>
        simp only [AuthState.runHandler, AuthState.handleReconnectProof]
        split_ifs <;> rfl
      | realmList => rfl
      | xferAccept => rfl
      | xferResume => rfl
      | xferCancel => rfl
    rw [hzero, Nat.add_zero, if_neg fun hc => hcmd hc.1]

/-- The size field of a challenge and the length of the login name agree only in a packet that has
room for both. -/
theorem challenge_check {size : ℕ} (hsize : size < 2 ^ 16) (loginLength : UInt8) :
    unsignedSub size (sizeofLogonChallenge - challengeInitialSize) = loginLength.toNat ↔
      size = 30 + loginLength.toNat := by
  have hlogin := loginLength.toNat_lt
  have hfixed : sizeofLogonChallenge - challengeInitialSize = 30 := rfl
  rw [hfixed, unsignedSub]
  by_cases hle : 30 ≤ size
  · rw [if_pos hle]
    omega
  · rw [if_neg hle]
    omega

theorem uint16At_lt (memory : List UInt8) (offset : ℕ) : uint16At memory offset < 2 ^ 16 := by
  have h₁ := (byteAt memory offset).toNat_lt
  have h₂ := (byteAt memory (offset + 1)).toNat_lt
  rw [uint16At]
  omega

/-- A challenge handler depends on the bytes of its command only: in a packet without room for the
length of the login name it fails, whatever it takes for this length. -/
theorem handleChallenge_take (query : List UInt8 → Query) (s : AuthState σ) (memory : List UInt8) :
    s.handleChallenge E query (memory.take (challengeInitialSize + uint16At memory 2)) =
      s.handleChallenge E query memory := by
  have hsize : uint16At (memory.take (challengeInitialSize + uint16At memory 2)) 2 =
    uint16At memory 2 :=
    uint16At_take (by rw [challengeInitialSize]; omega)
  have hlt := uint16At_lt memory 2
  simp only [AuthState.handleChallenge, hsize, ne_eq, challenge_check hlt]
  by_cases hroom : uint16At memory 2 < 30
  · rw [if_pos (by omega), if_pos (by omega)]
  · have hbyte : ∀ {offset}, offset < sizeofLogonChallenge →
        offset < challengeInitialSize + uint16At memory 2 := by
      intro offset hoffset
      rw [sizeofLogonChallenge] at hoffset
      rw [challengeInitialSize]
      omega
    have hlen : byteAt (memory.take (challengeInitialSize + uint16At memory 2)) 33 =
      byteAt memory 33 :=
      byteAt_take (hbyte (by decide))
    rw [hlen]
    by_cases hcheck : uint16At memory 2 = 30 + (byteAt memory 33).toNat
    · have hlogin : sizeofLogonChallenge + (byteAt memory 33).toNat ≤
          challengeInitialSize + uint16At memory 2 := by
        rw [hcheck, sizeofLogonChallenge, challengeInitialSize]
        omega
      have hbuild : uint16At (memory.take (challengeInitialSize + uint16At memory 2)) 11 =
          uint16At memory 11 := uint16At_take (hbyte (by decide))
      have hos : uint32At (memory.take (challengeInitialSize + uint16At memory 2)) 17 =
          uint32At memory 17 := uint32At_take (hbyte (by decide))
      rw [hbuild, hos, bytesAt_take hlogin]
    · rw [if_pos hcheck, if_pos hcheck]

theorem acceptedProof_take {memory key : List UInt8} (hn : sizeofLogonProof ≤ n)
    (hcheck : s.checkToken E (memory.take n) = s.checkToken E memory) :
    s.acceptedProof E (memory.take n) key = s.acceptedProof E memory key := by
  simp only [AuthState.acceptedProof, hcheck, AuthState.publicKey_take hn,
    AuthState.clientProof_take hn, AuthState.crcHash_take hn]

/-- `HandleLogonProof` depends on the bytes of its command and its token only. -/
theorem handleLogonProof_take (s : AuthState σ) (memory : List UInt8) (hn : sizeofLogonProof ≤ n)
    (htoken : readsToken E s memory = true →
      sizeofLogonProof + 1 + (byteAt memory sizeofLogonProof).toNat ≤ n) :
    s.handleLogonProof E (memory.take n) = s.handleLogonProof E memory := by
  have hcheck : readsToken E s memory = true ∨
    ¬ (AuthState.sentToken memory ∧ s.totpSecret.isSome) →
      s.checkToken E (memory.take n) = s.checkToken E memory := by
    intro hcase
    cases hsecret : s.totpSecret with
    | none => simp only [AuthState.checkToken, hsecret, AuthState.sentToken_take hn]
    | some secret =>
      by_cases hsent : AuthState.sentToken memory = true
      · have hlen := htoken (hcase.resolve_right fun hnot => hnot ⟨hsent, by rw [hsecret]; rfl⟩)
        simp only [AuthState.checkToken, AuthState.sentToken_take hn, AuthState.token]
        rw [byteAt_take (by omega), bytesAt_take (by omega)]
      · simp only [AuthState.checkToken, AuthState.sentToken_take hn, if_neg hsent]
  by_cases hexp : s.expversion = AuthState.noValidExpFlag
  · simp only [AuthState.handleLogonProof, if_pos hexp]
  · cases hsrp6 : s.srp6 with
    | none => simp only [AuthState.handleLogonProof, hsrp6]
    | some srp6 =>
      simp only [AuthState.handleLogonProof, if_neg hexp, hsrp6, AuthState.publicKey_take hn,
        AuthState.clientProof_take hn]
      cases hverify : E.verifyChallengeResponse srp6.data (AuthState.publicKey memory)
          (AuthState.clientProof memory) with
      | none => rfl
      | some key =>
        have hsame := hcheck (by
          by_cases hsent : AuthState.sentToken memory ∧ s.totpSecret.isSome
          · exact Or.inl (by simp [readsToken, hexp, hsrp6, hverify, hsent])
          · exact Or.inr hsent)
        exact acceptedProof_take E hn hsame

/-- **A handler depends on the bytes of its command only.** -/
theorem runHandler_take (hmem : hd ∈ authHandlers) (s : AuthState σ) (memory : List UInt8) :
    s.runHandler E hd.cmd (memory.take (commandLength E s hd memory)) =
      s.runHandler E hd.cmd memory := by
  have hlength := commandSize_le_commandLength E hmem s memory
  simp only [authHandlers, mem_cons, not_mem_nil, or_false] at hmem
  rcases hmem with rfl | rfl | rfl | rfl | rfl | rfl | rfl | rfl
  · exact handleChallenge_take E .logonChallenge s memory
  · refine handleLogonProof_take E s memory (Nat.le_trans (Nat.le_add_right _ _) hlength) ?_
    intro hreads
    exact Nat.le_of_eq (if_pos ⟨rfl, hreads⟩).symm
  · exact handleChallenge_take E .reconnectChallenge s memory
  · have hle : sizeofReconnectProof ≤
        commandLength E s ⟨.reconnectProof, .reconnectProof, sizeofReconnectProof⟩ memory :=
      Nat.le_trans (Nat.le_add_right _ _) hlength
    have hbytes : ∀ {offset size}, offset + size ≤ sizeofReconnectProof →
        bytesAt (memory.take
          (commandLength E s ⟨.reconnectProof, .reconnectProof, sizeofReconnectProof⟩ memory))
          offset size = bytesAt memory offset size :=
      fun h => bytesAt_take (Nat.le_trans h hle)
    have hR₁ := hbytes (show 1 + 16 ≤ sizeofReconnectProof by decide)
    have hR₂ := hbytes (show 17 + 20 ≤ sizeofReconnectProof by decide)
    have hR₃ := hbytes (show 37 + 20 ≤ sizeofReconnectProof by decide)
    simp only [AuthState.runHandler, AuthState.handleReconnectProof, AuthState.reconnectDigest, hR₁,
      hR₂, hR₃]
  · rfl
  · rfl
  · rfl
  · rfl

/-- How far a handler looks: a challenge handler to the length of the login name and then to its
end, a logon proof handler to the end of the token that it reads. -/
theorem extent_runHandler (hmem : hd ∈ authHandlers) (s : AuthState σ) (memory : List UInt8) :
    (hd.cmd.isChallenge = true → sizeofLogonChallenge ≤ (s.runHandler E hd.cmd memory).extent ∧
        (s.runHandler E hd.cmd memory).extent ≤ max sizeofLogonChallenge (commandSize hd memory)) ∧
      (hd.cmd.isChallenge = false →
        (s.runHandler E hd.cmd memory).extent ≤ commandLength E s hd memory) ∧
      (hd.cmd = .logonProof → readsToken E s memory = true →
        (s.runHandler E hd.cmd memory).extent = commandLength E s hd memory) := by
  have hsum := commandSize_add_consumed E hmem s memory
  have hlength := commandSize_le_commandLength E hmem s memory
  have hchallenge : ∀ query, sizeofLogonChallenge ≤ (s.handleChallenge E query memory).extent ∧
      (s.handleChallenge E query memory).extent ≤
        max sizeofLogonChallenge (challengeInitialSize + uint16At memory 2) := by
    intro query
    simp only [AuthState.handleChallenge, ne_eq, challenge_check (uint16At_lt memory 2)]
    by_cases hcheck : uint16At memory 2 = 30 + (byteAt memory 33).toNat
    · rw [if_neg (not_not.mpr hcheck)]
      dsimp only
      rw [hcheck, sizeofLogonChallenge, challengeInitialSize]
      omega
    · rw [if_pos hcheck]
      exact ⟨Nat.le_refl _, Nat.le_max_left _ _⟩
  simp only [authHandlers, mem_cons, not_mem_nil, or_false] at hmem
  rcases hmem with rfl | rfl | rfl | rfl | rfl | rfl | rfl | rfl
  · exact ⟨fun _ => hchallenge _, fun h => absurd h (by decide), fun h => absurd h (by decide)⟩
  · obtain ⟨-, hle, heq⟩ := handleLogonProof_consumed E s memory
    refine ⟨fun h => absurd h (by decide), fun _ => Nat.le_trans hle (Nat.le_of_eq hsum),
      fun _ hreads => ?_⟩
    exact (heq hreads).1.trans hsum
  · exact ⟨fun _ => hchallenge _, fun h => absurd h (by decide), fun h => absurd h (by decide)⟩
  · refine ⟨fun h => absurd h (by decide), fun _ => Nat.le_trans ?_ hlength, fun h =>
      absurd h (by decide)⟩
    simp only [AuthState.runHandler, AuthState.handleReconnectProof]
    split_ifs
    · exact Nat.zero_le _
    all_goals exact Nat.le_add_right _ _
  all_goals
    exact ⟨fun h => absurd h (by decide), fun _ => Nat.zero_le _, fun h => absurd h (by decide)⟩

/-! ### Rounds -/

/-- A round runs a handler. -/
structure Runs (a : AuthSession σ) (hd : AuthHandler) : Prop where
  find : findHandler (byteAt a.readBuffer.fromReadPointer 0) = some hd
  status : a.state.status = hd.status
  accepted : ¬ (hd.cmd.isChallenge ∧
    commandSize hd a.readBuffer.fromReadPointer > maxAcceptedChallengeSize)
  size_le : commandSize hd a.readBuffer.fromReadPointer ≤ a.readBuffer.activeSize

/-- What the handler of a round will look at has arrived: the fixed part of a challenge, and the
length byte and the token behind a logon proof, if a token is read. -/
def Covered (a : AuthSession σ) : Prop :=
  ∀ hd, Runs a hd →
    (hd.cmd.isChallenge = true → sizeofLogonChallenge ≤ a.readBuffer.activeSize) ∧
    (hd.cmd = .logonProof → readsToken E a.state a.readBuffer.fromReadPointer = true →
      sizeofLogonProof + 1 + (byteAt a.readBuffer.fromReadPointer sizeofLogonProof).toNat ≤
        a.readBuffer.activeSize)

/-- A round stays within the received data: its handler looks at received bytes only, and the read
cursor does not pass the write cursor. -/
def ReadsReceived (a : AuthSession σ) : Prop :=
  (∀ hd, Runs a hd →
      (a.state.runHandler E hd.cmd a.readBuffer.fromReadPointer).extent ≤ a.readBuffer.activeSize) ∧
    (a.readBody E).2.readBuffer.rpos ≤ (a.readBody E).2.readBuffer.wpos

variable {a : AuthSession σ}

theorem Runs.mem (h : Runs a hd) : hd ∈ authHandlers :=
  mem_of_findHandler h.find

instance (a : AuthSession σ) (hd : AuthHandler) : Decidable (Runs a hd) :=
  decidable_of_iff (findHandler (byteAt a.readBuffer.fromReadPointer 0) = some hd ∧
      a.state.status = hd.status ∧
      ¬ (hd.cmd.isChallenge ∧
        commandSize hd a.readBuffer.fromReadPointer > maxAcceptedChallengeSize) ∧
      commandSize hd a.readBuffer.fromReadPointer ≤ a.readBuffer.activeSize)
    ⟨fun ⟨hfind, hstatus, haccepted, hsize⟩ => ⟨hfind, hstatus, haccepted, hsize⟩,
      fun h => ⟨h.find, h.status, h.accepted, h.size_le⟩⟩

instance (a : AuthSession σ) : Decidable (Covered E a) :=
  decidable_of_iff (∀ hd ∈ authHandlers, Runs a hd →
      (hd.cmd.isChallenge = true → sizeofLogonChallenge ≤ a.readBuffer.activeSize) ∧
      (hd.cmd = .logonProof → readsToken E a.state a.readBuffer.fromReadPointer = true →
        sizeofLogonProof + 1 + (byteAt a.readBuffer.fromReadPointer sizeofLogonProof).toNat ≤
          a.readBuffer.activeSize))
    ⟨fun h hd hruns => h hd hruns.mem hruns, fun h hd _ hruns => h hd hruns⟩

theorem Runs.readBody_eq (h : Runs a hd) :
    a.readBody E = a.handle E hd.cmd (commandSize hd a.readBuffer.fromReadPointer) := by
  have hfixed : hd.packetSize ≤ commandSize hd a.readBuffer.fromReadPointer := Nat.le_add_right _ _
  have hsize := h.size_le
  simp only [readBody, h.find, ne_eq, h.status, not_true_eq_false, if_false, if_neg h.accepted]
  rw [if_neg (by omega), if_neg (by omega)]

/-- The length of a command that is covered. -/
theorem Covered.commandLength_le (h : Covered E a) (hruns : Runs a hd) :
    commandLength E a.state hd a.readBuffer.fromReadPointer ≤ a.readBuffer.activeSize := by
  rw [commandLength]
  split_ifs with hreads
  · exact (h hd hruns).2 hreads.1 hreads.2
  · exact hruns.size_le

/-- The read buffer after a handled command. -/
theorem handle_readBuffer (a : AuthSession σ) (cmd : AuthCmd) (size : ℕ) :
    (a.handle E cmd size).2.readBuffer =
      a.readBuffer.readCompleted ((a.state.runHandler E cmd a.readBuffer.fromReadPointer).consumed +
        if (a.state.runHandler E cmd a.readBuffer.fromReadPointer).ok then size else 0) := by
  simp only [handle]
  set r := a.state.runHandler E cmd a.readBuffer.fromReadPointer
  obtain ⟨socket, heq, hread, -⟩ := foldl_sendPacket_frame (σ := σ) { a with
    state := r.state
    handled := a.handled ++
      [⟨cmd, a.state, a.readBuffer.fromReadPointer.take (size + r.consumed)⟩] }
    r.reply
  rw [heq]
  split_ifs
  · simp only [readCompleted, readBuffer, hread, MessageBuffer.readCompleted, Nat.add_assoc]
  · rw [Nat.add_zero, readBuffer, closeSocket, Socket.readBuffer_closeSocket]
    simp only [readCompleted, readBuffer, hread]

/-- **A round stays within the received data exactly when it is covered.** -/
theorem readsReceived_iff (hord : a.readBuffer.Ordered) : ReadsReceived E a ↔ Covered E a := by
  have hle := hord.read_le
  have hactive := hord.activeSize_eq
  constructor
  · rintro ⟨hextent, -⟩ hd hruns
    obtain ⟨hchallenge, -, hproof⟩ :=
      extent_runHandler E hruns.mem a.state a.readBuffer.fromReadPointer
    have hlook := hextent hd hruns
    refine ⟨fun hc => Nat.le_trans (hchallenge hc).1 hlook, fun hcmd hreads => ?_⟩
    rw [hproof hcmd hreads, commandLength, if_pos ⟨hcmd, hreads⟩] at hlook
    exact hlook
  · intro hcovered
    refine ⟨fun hd hruns => ?_, ?_⟩
    · obtain ⟨hchallenge, hother, -⟩ :=
        extent_runHandler E hruns.mem a.state a.readBuffer.fromReadPointer
      cases hc : hd.cmd.isChallenge with
      | true =>
        have hsize := hruns.size_le
        have hfixed := (hcovered hd hruns).1 hc
        exact Nat.le_trans (hchallenge hc).2 (Nat.max_le.mpr ⟨hfixed, hsize⟩)
      | false => exact Nat.le_trans (hother hc) (hcovered.commandLength_le E hruns)
    · rcases a.readBody_cases E with heq | heq | ⟨hd, -, hfind, hstatus, hlarge, hsize, heq⟩
      · rw [heq, readBuffer, closeSocket, Socket.readBuffer_closeSocket]
        exact hle
      · rw [heq]
        exact hle
      · have hruns : Runs a hd := ⟨hfind, hstatus, hlarge, hsize⟩
        have hlength := hcovered.commandLength_le E hruns
        have hsum := commandSize_add_consumed E hruns.mem a.state a.readBuffer.fromReadPointer
        rw [heq, handle_readBuffer]
        simp only [MessageBuffer.readCompleted]
        split_ifs <;> omega

end AuthSession

end IscServer
