import IscServer.AuthServer.AuthSession

/-!
# Authentication Needs a Proof

The status of an `AuthSession` goes through `STATUS_CLOSED` while a query is in flight, and the
callback of the query decides where it comes back. `Phase` lists the nine situations in which a
session can be, with the queries in flight in each of them; since a query is only in flight when
no command is accepted, the answers cannot come in a wrong order.

## Main results

* `handle_phase`, `onAnswer_phase`: handlers and callbacks move from phase to phase.
* `authenticated_of_status`: **a session is authenticated only by a valid proof**: in every run,
  `STATUS_AUTHED` and `STATUS_WAITING_FOR_REALM_LIST` come after an accepted logon proof or a
  reconnect digest that matches, at most one challenge is handled, and a logon proof meets an
  `SRP6` object that has not been used.
-/

namespace IscServer

open List

namespace AuthSession

variable {σ : Type} (E : AuthEnv σ)

/-! ### Evidence -/

/-- The second factor: the account has no secret and no token was sent, or the token is valid for
the secret of the account. -/
def TokenAccepted (row : LogonChallengeRow) (bytes : List UInt8) : Prop :=
  row.totpSecret = none ∧ AuthState.sentToken bytes = false ∨
    ∃ stored secret, row.totpSecret = some stored ∧ E.decryptTotpSecret stored = some secret ∧
      AuthState.sentToken bytes = true ∧
        E.validateToken secret (atoi (AuthState.token bytes)) = true

/-- A handled command was a logon proof that passed all checks. -/
structure ValidLogonProof (row : LogonChallengeRow) (c : HandledCmd σ) : Prop where
  cmd : c.cmd = .logonProof
  verified : ∃ srp6 key, c.before.srp6 = some srp6 ∧
    E.verifyChallengeResponse srp6.data (AuthState.publicKey c.bytes)
      (AuthState.clientProof c.bytes) =
      some key
  token : TokenAccepted E row c.bytes
  version : c.before.verifyVersion E (AuthState.publicKey c.bytes)
    (AuthState.crcHash c.bytes) false = true

/-- A handled command was a reconnect proof whose digest of the login, `R1`, the challenge of the
server and the stored session key is `R2`. -/
structure ValidReconnectProof (row : ReconnectChallengeRow) (c : HandledCmd σ) : Prop where
  cmd : c.cmd = .reconnectProof
  digest : E.sha1 (E.toUpperOnlyLatin row.account.login ++ bytesAt c.bytes 1 16 ++ E.randomBytes ++
    row.sessionKey) = bytesAt c.bytes 17 20

/-- A valid proof has been handled. -/
def Authenticated (a : AuthSession σ) : Prop :=
  (∃ row, a.logonRow = some row ∧ ∃ c ∈ a.handled, ValidLogonProof E row c) ∨
    ∃ row, a.reconnectRow = some row ∧ ∃ c ∈ a.handled, ValidReconnectProof E row c

/-- Evidence is not lost. -/
theorem Authenticated.mono {a a' : AuthSession σ} (h : Authenticated E a)
    (hhandled : ∀ c ∈ a.handled, c ∈ a'.handled) (hlogon : a'.logonRow = a.logonRow)
    (hreconnect : a'.reconnectRow = a.reconnectRow) : Authenticated E a' := by
  rcases h with ⟨row, hrow, c, hc, hvalid⟩ | ⟨row, hrow, c, hc, hvalid⟩
  · exact Or.inl ⟨row, hlogon.trans hrow, c, hhandled c hc, hvalid⟩
  · exact Or.inr ⟨row, hreconnect.trans hrow, c, hhandled c hc, hvalid⟩

/-! ### Phases -/

/-- The secret of a session is that of the account. -/
def SecretOf (row : LogonChallengeRow) (secret : Option (List UInt8)) : Prop :=
  row.totpSecret = none ∧ secret = none ∨
    ∃ stored plain, row.totpSecret = some stored ∧ E.decryptTotpSecret stored = some plain ∧
      secret = some plain

/-- The phases of a session, by its state and the rows it was given; `fresh` says that no
challenge has been handled, and `auth` that a valid proof has been handled. -/
inductive Phase (s : AuthState σ) (logonRow : Option LogonChallengeRow)
    (reconnectRow : Option ReconnectChallengeRow) (fresh auth : Prop) : Prop where
  | start (hstatus : s.status = .challenge) (hqueries : s.queries = [])
      (hsecret : s.totpSecret = none)
      (hfresh : fresh)
  | logonAsked (login : List UInt8) (hstatus : s.status = .closed)
      (hqueries : s.queries = [.logonChallenge login]) (hsecret : s.totpSecret = none)
  | proofAwaited (srp6 : Srp6 σ) (row : LogonChallengeRow) (hstatus : s.status = .logonProof)
      (hqueries : s.queries = []) (hsrp6 : s.srp6 = some srp6) (hused : srp6.used = false)
      (hrow : logonRow = some row) (hsecret : SecretOf E row s.totpSecret)
  | proofAccepted (sessionVerifier : List UInt8) (hstatus : s.status = .closed)
      (hqueries : s.queries = [.logonProof sessionVerifier]) (hauth : auth)
  | reconnectAsked (login : List UInt8) (hstatus : s.status = .closed)
      (hqueries : s.queries = [.reconnectChallenge login])
  | reconnectAwaited (row : ReconnectChallengeRow) (hstatus : s.status = .reconnectProof)
      (hqueries : s.queries = []) (hrow : reconnectRow = some row)
      (hlogin : s.accountInfo.login = E.toUpperOnlyLatin row.account.login)
      (hkey : s.sessionKey = row.sessionKey) (hchallenge : s.reconnectProof = E.randomBytes)
  | authed (hstatus : s.status = .authed) (hqueries : s.queries = []) (hauth : auth)
  | realmListAsked (hstatus : s.status = .waitingForRealmList) (hqueries : s.queries = [.realmList])
      (hauth : auth)
  | refused (hstatus : s.status = .closed) (hqueries : s.queries = [])

section Inversion

variable {E} {s : AuthState σ} {logonRow : Option LogonChallengeRow}
  {reconnectRow : Option ReconnectChallengeRow} {fresh auth : Prop}

section

variable (h : Phase E s logonRow reconnectRow fresh auth)
include h

theorem Phase.of_challenge (hs : s.status = .challenge) :
    s.queries = [] ∧ s.totpSecret = none ∧ fresh := by
  cases h <;> simp_all

theorem Phase.of_logonProof (hs : s.status = .logonProof) :
    s.queries = [] ∧ ∃ srp6 row, s.srp6 = some srp6 ∧ srp6.used = false ∧ logonRow = some row ∧
      SecretOf E row s.totpSecret := by
  cases h <;> simp_all

theorem Phase.of_reconnectProof (hs : s.status = .reconnectProof) :
    s.queries = [] ∧ ∃ row, reconnectRow = some row ∧
      s.accountInfo.login = E.toUpperOnlyLatin row.account.login ∧ s.sessionKey = row.sessionKey ∧
      s.reconnectProof = E.randomBytes := by
  cases h <;> simp_all

theorem Phase.of_authed (hs : s.status = .authed) : s.queries = [] ∧ auth := by
  cases h <;> simp_all

theorem Phase.auth_of_status (hs : s.status = .authed ∨ s.status = .waitingForRealmList) :
    auth := by
  cases h <;> simp_all

/-- No command is handled while a query is in flight. -/
theorem Phase.not_handled (hq : s.queries ≠ []) : ∀ hd ∈ authHandlers, s.status ≠ hd.status := by
  have hstatus : s.status = .closed ∨ s.status = .waitingForRealmList := by
    cases h <;> simp_all
  have hnone : ∀ hd ∈ authHandlers, .closed ≠ hd.status ∧ .waitingForRealmList ≠ hd.status := by
    decide
  intro hd hmem
  rcases hstatus with heq | heq
  · rw [heq]
    exact (hnone hd hmem).1
  · rw [heq]
    exact (hnone hd hmem).2

theorem Phase.not_xfer : s.status ≠ .xfer := by
  cases h <;> simp_all

end

end Inversion

/-! ### Handlers -/

/-- A challenge command asks for the account, or nothing. -/
theorem handleChallenge_queries (query : List UInt8 → Query) (s : AuthState σ)
    (memory : List UInt8) :
    (s.handleChallenge E query memory).state.totpSecret = s.totpSecret ∧
      ((s.handleChallenge E query memory).state.queries = s.queries ∨
        ∃ login, (s.handleChallenge E query memory).state.queries = s.queries ++
          [query login]) := by
  simp only [AuthState.handleChallenge]
  split_ifs
  · exact ⟨rfl, Or.inl rfl⟩
  · exact ⟨rfl, Or.inr ⟨_, rfl⟩⟩

/-- A logon proof asks for nothing, or it has passed all checks. -/
theorem handleLogonProof_queries {s : AuthState σ} {srp6 : Srp6 σ} (hsrp6 : s.srp6 = some srp6)
    (memory : List UInt8) :
    (s.handleLogonProof E memory).state.queries = s.queries ∨
      ∃ sessionVerifier key,
        (s.handleLogonProof E memory).state.queries = s.queries ++ [.logonProof sessionVerifier] ∧
        E.verifyChallengeResponse srp6.data (AuthState.publicKey memory)
          (AuthState.clientProof memory) =
          some key ∧
        (s.checkToken E memory).1 = true ∧
        s.verifyVersion E (AuthState.publicKey memory) (AuthState.crcHash memory) false = true ∧
        (s.handleLogonProof E memory).consumed = (s.checkToken E memory).2.1 := by
  simp only [AuthState.handleLogonProof]
  split_ifs
  · exact Or.inl rfl
  · simp only [hsrp6]
    cases hverify : E.verifyChallengeResponse srp6.data (AuthState.publicKey memory)
        (AuthState.clientProof memory) with
    | none => exact Or.inl rfl
    | some key =>
      simp only [AuthState.acceptedProof]
      split_ifs with htoken hversion
      · exact Or.inl rfl
      · exact Or.inl rfl
      · have hcheck : (s.checkToken E memory).1 = true := Bool.not_eq_false _ ▸ fun h =>
          htoken (congrArg not h)
        refine Or.inr ⟨_, key, rfl, rfl, hcheck, ?_, rfl⟩
        exact Bool.not_eq_false _ ▸ fun h => hversion (congrArg not h)

variable {s : AuthState σ}

/-- The token check that has passed. -/
theorem tokenAccepted_of_checkToken {row : LogonChallengeRow}
    (hsecret : SecretOf E row s.totpSecret) {memory : List UInt8}
    (hcheck : (s.checkToken E memory).1 = true) :
    TokenAccepted E row (memory.take (sizeofLogonProof + (s.checkToken E memory).2.1)) := by
  rcases hsecret with ⟨hrow, hnone⟩ | ⟨stored, plain, hrow, hdecrypt, hsome⟩
  · simp only [AuthState.checkToken, hnone] at hcheck ⊢
    refine Or.inl ⟨hrow, ?_⟩
    rw [AuthState.sentToken_take (Nat.le_add_right _ _)]
    simpa using hcheck
  · simp only [AuthState.checkToken, hsome] at hcheck ⊢
    split_ifs at hcheck ⊢ with hsentToken
    · refine Or.inr ⟨stored, plain, hrow, hdecrypt, ?_, ?_⟩
      · rw [AuthState.sentToken_take (Nat.le_add_right _ _)]
        exact hsentToken
      · rw [AuthState.token, byteAt_take (by dsimp only; omega),
          bytesAt_take (by dsimp only; omega)]
        exact hcheck

/-- A reconnect proof that is accepted has a matching digest. -/
theorem handleReconnectProof_state (s : AuthState σ) (memory : List UInt8) :
    (s.handleReconnectProof E memory).state.queries = s.queries ∧
      ((s.handleReconnectProof E memory).state.status = .closed ∨
        (s.handleReconnectProof E memory).state.status = .authed ∧
          s.reconnectDigest E memory = bytesAt memory 17 20) := by
  simp only [AuthState.handleReconnectProof]
  split_ifs with hlogin hdigest hversion
  · exact ⟨rfl, Or.inl rfl⟩
  · exact ⟨rfl, Or.inl rfl⟩
  · exact ⟨rfl, Or.inr ⟨rfl, hdigest⟩⟩
  · exact ⟨rfl, Or.inl rfl⟩

/-- The number of challenge commands handled. -/
def challenges (a : AuthSession σ) : ℕ :=
  a.handled.countP fun c => c.cmd.isChallenge

/-- The phase of a session. -/
def InPhase (a : AuthSession σ) : Prop :=
  Phase E a.state a.logonRow a.reconnectRow (a.challenges = 0) (Authenticated E a)

variable {a : AuthSession σ}

/-- A challenge command asks for the account or refuses. -/
theorem challenge_phase (h : InPhase E a)
    (hstatus : a.state.status = .challenge)
    (query : List UInt8 → Query) {logonRow : Option LogonChallengeRow}
    {reconnectRow : Option ReconnectChallengeRow} {fresh auth : Prop} {memory : List UInt8}
    (asked : ∀ {s : AuthState σ} (login : List UInt8), s.status = .closed →
      s.queries = [query login] →
      s.totpSecret = none → Phase E s logonRow reconnectRow fresh auth) :
    Phase E (a.state.handleChallenge E query memory).state logonRow reconnectRow fresh auth := by
  obtain ⟨hqueries, hsecret, -⟩ := h.of_challenge hstatus
  have hclosed := a.state.status_handleChallenge E query memory
  obtain ⟨hsec, heq | ⟨login, heq⟩⟩ := handleChallenge_queries E query a.state memory
  · exact .refused hclosed (heq.trans hqueries)
  · rw [hqueries] at heq
    exact asked login hclosed heq (hsec.trans hsecret)

variable {hd : AuthHandler}

/-- **A handled command** moves a session to its next phase. -/
theorem handle_phase (h : InPhase E a) (hmem : hd ∈ authHandlers)
    (hstatus : a.state.status = hd.status) :
    InPhase E (a.handle E hd.cmd (commandSize hd a.readBuffer.fromReadPointer)).2 := by
  set memory := a.readBuffer.fromReadPointer
  set a' := (a.handle E hd.cmd (commandSize hd memory)).2
  obtain ⟨hstate, hhandled, hlogon, hreconnect⟩ :
    _ ∧ _ ∧ _ ∧ _ := handle_frame E hd.cmd (commandSize hd memory) a
  have hmono : Authenticated E a → Authenticated E a' := fun hauth =>
    hauth.mono E (fun c hc => by rw [hhandled]; exact mem_append_left _ hc) hlogon hreconnect
  rw [InPhase, hstate]
  simp only [authHandlers, mem_cons, not_mem_nil, or_false] at hmem
  rcases hmem with rfl | rfl | rfl | rfl | rfl | rfl | rfl | rfl
  · exact challenge_phase E h hstatus .logonChallenge fun login hs hq hsec =>
      .logonAsked login hs hq hsec
  · obtain ⟨hqueries, srp6, row, hsrp6, -, hrow, hsecret⟩ := h.of_logonProof hstatus
    have hclosed := a.state.status_handleLogonProof E memory
    rcases handleLogonProof_queries E hsrp6 memory
      with heq | ⟨v, key, heq, hverify, hcheck, hversion, hconsumed⟩
    · exact .refused hclosed (heq.trans hqueries)
    · rw [hqueries] at heq
      refine .proofAccepted v hclosed heq (Or.inl ⟨row, hlogon.trans hrow, ?_⟩)
      rw [hhandled]
      have hsize : commandSize ⟨.logonProof, .logonProof, sizeofLogonProof⟩ memory +
          (a.state.handleLogonProof E memory).consumed = sizeofLogonProof +
          (a.state.checkToken E memory).2.1 := by
        rw [hconsumed]
        rfl
      have hle : sizeofLogonProof ≤ sizeofLogonProof + (a.state.checkToken E memory).2.1 :=
        Nat.le_add_right _ _
      refine ⟨_, mem_append_right _ (mem_singleton_self _), rfl, ⟨srp6, key, hsrp6, ?_⟩, ?_, ?_⟩
      all_goals rw [AuthState.runHandler, hsize]
      · rw [AuthState.publicKey_take hle, AuthState.clientProof_take hle, hverify]
      · exact tokenAccepted_of_checkToken E hsecret hcheck
      · rw [AuthState.publicKey_take hle, AuthState.crcHash_take hle, hversion]
  · exact challenge_phase E h hstatus .reconnectChallenge fun login hs hq _ =>
      .reconnectAsked login hs hq
  · obtain ⟨hqueries, row, hrow, hlogin, hkey, hchallenge⟩ := h.of_reconnectProof hstatus
    obtain ⟨hq, hclosed | ⟨hauthed, hdigest⟩⟩ := handleReconnectProof_state E a.state memory
    · exact .refused hclosed (hq.trans hqueries)
    · refine .authed hauthed (hq.trans hqueries) (Or.inr ⟨row, hreconnect.trans hrow, ?_⟩)
      rw [hhandled]
      refine ⟨_, mem_append_right _ (mem_singleton_self _), rfl, ?_⟩
      have hsize : sizeofReconnectProof ≤
        commandSize ⟨.reconnectProof, .reconnectProof, sizeofReconnectProof⟩ memory +
          (a.state.runHandler E .reconnectProof memory).consumed :=
        Nat.le_trans (Nat.le_add_right _ _) (Nat.le_add_right _ _)
      rw [bytesAt_take (Nat.le_trans (by decide) hsize),
        bytesAt_take (Nat.le_trans (by decide) hsize), ← hlogin,
        ← hkey, ← hchallenge]
      exact hdigest
  · obtain ⟨hqueries, hauth⟩ := h.of_authed hstatus
    refine .realmListAsked rfl ?_ (hmono hauth)
    simp only [AuthState.runHandler, AuthState.handleRealmList, hqueries, nil_append]
  · exact absurd hstatus h.not_xfer
  · exact absurd hstatus h.not_xfer
  · exact absurd hstatus h.not_xfer

/-! ### Callbacks -/

/-- The callback of the logon challenge leaves the status alone or waits for a proof with a new
`SRP6` object. -/
theorem offerProof_state (s : AuthState σ) (row : LogonChallengeRow) :
    (s.offerProof E row).1.queries = s.queries ∧ (s.offerProof E row).1.totpSecret = s.totpSecret ∧
      ((s.offerProof E row).1.status = s.status ∨ (s.offerProof E row).1.status = .logonProof ∧
        ∃ srp6, (s.offerProof E row).1.srp6 = some srp6 ∧ srp6.used = false) := by
  by_cases hbuild : AuthState.isAcceptedClientBuild E s.build = true
  · simp only [AuthState.offerProof, if_pos hbuild]
    exact ⟨trivial, trivial, Or.inr ⟨trivial, _, rfl, rfl⟩⟩
  · simp only [AuthState.offerProof, if_neg hbuild]
    exact ⟨trivial, trivial, Or.inl trivial⟩

theorem logonChallengeCallback_state (hsecret : s.totpSecret = none)
    (result : Option LogonChallengeRow) :
    (s.logonChallengeCallback E result).1.queries = s.queries ∧
      ((s.logonChallengeCallback E result).1.status = s.status ∨
        (s.logonChallengeCallback E result).1.status = .logonProof ∧
          ∃ srp6 row, (s.logonChallengeCallback E result).1.srp6 = some srp6 ∧ srp6.used = false ∧
            result = some row ∧ SecretOf E row
              (s.logonChallengeCallback E result).1.totpSecret) := by
  have offered : ∀ (s : AuthState σ) (row : LogonChallengeRow), SecretOf E row s.totpSecret →
      (s.offerProof E row).1.queries = s.queries ∧
        ((s.offerProof E row).1.status = s.status ∨ (s.offerProof E row).1.status = .logonProof ∧
          ∃ srp6 row', (s.offerProof E row).1.srp6 = some srp6 ∧ srp6.used = false ∧
            some row = some row' ∧ SecretOf E row' (s.offerProof E row).1.totpSecret) := by
    intro s row hsecret
    obtain ⟨hqueries, hsec, hstatus | ⟨hstatus, srp6, hsrp6, hused⟩⟩ := offerProof_state E s row
    · exact ⟨hqueries, Or.inl hstatus⟩
    · exact ⟨hqueries, Or.inr ⟨hstatus, srp6, row, hsrp6, hused, rfl, hsec ▸ hsecret⟩⟩
  cases result with
  | none => exact ⟨rfl, Or.inl rfl⟩
  | some row =>
    simp only [AuthState.logonChallengeCallback]
    cases hrefusal : AuthState.refusal E (AuthState.loadResult E row.account) with
    | some error => exact ⟨rfl, Or.inl rfl⟩
    | none =>
      cases htotp : row.totpSecret with
      | none => exact offered _ row (Or.inl ⟨htotp, hsecret⟩)
      | some stored =>
        cases hdecrypt : E.decryptTotpSecret stored with
        | none =>
          simp only [hdecrypt]
          exact ⟨trivial, Or.inl trivial⟩
        | some plain =>
          simp only [hdecrypt]
          exact offered _ row (Or.inr ⟨stored, plain, htotp, hdecrypt, rfl⟩)

/-- Sending a packet keeps the phase. -/
theorem InPhase.sendPacket (h : InPhase E a) (packet : List UInt8) :
    InPhase E (a.sendPacket packet) := by
  obtain ⟨socket, heq, -, -⟩ := a.sendPacket_frame packet
  rw [heq]
  exact h

/-- The only query in flight is answered. -/
theorem query_of_singleton {q q' : Query} {i : ℕ} (h : [q][i]? = some q') : i = 0 ∧ q' = q := by
  cases i with
  | zero => exact ⟨rfl, (Option.some.inj h).symm⟩
  | succ i => exact absurd h (by simp)

/-- **The callback of a query** moves a session to its next phase. -/
theorem onAnswer_phase (h : InPhase E a) (i : ℕ) (answer : (q : Query) → q.Answer) :
    InPhase E (a.onAnswer E i answer) := by
  cases hq : a.state.queries[i]? with
  | none => rwa [onAnswer, hq]
  | some q =>
    have none_of_nil : a.state.queries = [] → InPhase E (a.onAnswer E i answer) := by
      intro hnil
      rw [hnil] at hq
      exact absurd hq (by simp)
    cases h with
    | start _ hqueries _ _ => exact none_of_nil hqueries
    | proofAwaited _ _ _ hqueries _ _ _ _ => exact none_of_nil hqueries
    | reconnectAwaited _ _ hqueries _ _ _ _ => exact none_of_nil hqueries
    | authed _ hqueries _ => exact none_of_nil hqueries
    | refused _ hqueries => exact none_of_nil hqueries
    | logonAsked login hstatus hqueries hsecret =>
      rw [hqueries] at hq
      obtain ⟨rfl, rfl⟩ := query_of_singleton hq
      simp only [onAnswer, hqueries]
      refine InPhase.sendPacket E ?_ _
      obtain ⟨hq', hclosed | ⟨hproof, srp6, row, hsrp6, hused, hrow, hsecret'⟩⟩ :=
        logonChallengeCallback_state E (s := { a.state with queries := [] }) hsecret
          (answer (.logonChallenge login))
      · exact .refused (hclosed.trans hstatus) hq'
      · exact .proofAwaited srp6 row hproof hq' hsrp6 hused hrow hsecret'
    | reconnectAsked login hstatus hqueries =>
      rw [hqueries] at hq
      obtain ⟨rfl, rfl⟩ := query_of_singleton hq
      simp only [onAnswer, hqueries]
      refine InPhase.sendPacket E ?_ _
      cases hrow : answer (.reconnectChallenge login) with
      | none => exact .refused hstatus rfl
      | some row => exact .reconnectAwaited row rfl rfl rfl rfl rfl rfl
    | proofAccepted v hstatus hqueries hauth =>
      rw [hqueries] at hq
      obtain ⟨rfl, rfl⟩ := query_of_singleton hq
      simp only [onAnswer, hqueries]
      refine InPhase.sendPacket E ?_ _
      exact .authed rfl rfl (hauth.mono E (fun _ hc => hc) rfl rfl)
    | realmListAsked hstatus hqueries hauth =>
      rw [hqueries] at hq
      obtain ⟨rfl, rfl⟩ := query_of_singleton hq
      simp only [onAnswer, hqueries]
      refine InPhase.sendPacket E ?_ _
      exact .authed rfl rfl (hauth.mono E (fun _ hc => hc) rfl rfl)

/-! ### Runs -/

/-- What holds of a session in every run. -/
structure Safe (a : AuthSession σ) : Prop where
  phase : InPhase E a
  challenges_le : a.challenges ≤ 1
  logonProofs : ∀ c ∈ a.handled, c.cmd = .logonProof →
    ∃ srp6, c.before.srp6 = some srp6 ∧ srp6.used = false

/-- Changes of the socket keep a session safe. -/
theorem Safe.of_socket (h : Safe E a) (socket : Socket) : Safe E { a with socket } :=
  ⟨h.phase, h.challenges_le, h.logonProofs⟩

/-- Commands with a length field are accepted in the first status only. -/
theorem status_of_isChallenge :
    ∀ hd ∈ authHandlers, hd.cmd.isChallenge = true → hd.status = .challenge := by
  decide

theorem status_of_logonProof :
    ∀ hd ∈ authHandlers, hd.cmd = .logonProof → hd.status = .logonProof := by
  decide

/-- A handled command keeps a session safe. -/
theorem handle_safe (h : Safe E a) (hmem : hd ∈ authHandlers)
    (hstatus : a.state.status = hd.status) :
    Safe E (a.handle E hd.cmd (commandSize hd a.readBuffer.fromReadPointer)).2 := by
  obtain ⟨-, hhandled, -, -⟩ :=
    handle_frame E hd.cmd (commandSize hd a.readBuffer.fromReadPointer) a
  refine ⟨handle_phase E h.phase hmem hstatus, ?_, ?_⟩
  · rw [challenges, hhandled, countP_append]
    by_cases hchallenge : hd.cmd.isChallenge = true
    · obtain ⟨-, -, hfresh⟩ :=
        h.phase.of_challenge (hstatus.trans (status_of_isChallenge hd hmem hchallenge))
      rw [challenges] at hfresh
      simp [hfresh, hchallenge]
    · have hle := h.challenges_le
      rw [challenges] at hle
      simpa [hchallenge] using hle
  · intro c hc hcmd
    rw [hhandled] at hc
    rcases mem_append.mp hc with hc | hc
    · exact h.logonProofs c hc hcmd
    · obtain rfl := mem_singleton.mp hc
      obtain ⟨-, srp6, row, hsrp6, hused, -, -⟩ :=
        h.phase.of_logonProof (hstatus.trans (status_of_logonProof hd hmem hcmd))
      exact ⟨srp6, hsrp6, hused⟩

theorem readBody_safe (h : Safe E a) : Safe E (a.readBody E).2 := by
  rcases a.readBody_cases E with heq | heq | ⟨hd, hmem, -, hstatus, -, -, heq⟩
  · rw [heq]
    exact h.of_socket E _
  · rw [heq]
    exact h
  · rw [heq]
    exact handle_safe E h hmem hstatus

theorem readLoop_safe (fuel : ℕ) (h : Safe E a) : Safe E (a.readLoop E fuel).2 := by
  induction fuel generalizing a with
  | zero => exact h
  | succ fuel ih =>
    have hbody := readBody_safe E h
    rw [readLoop]
    split_ifs
    · dsimp only
      cases hflow : (a.readBody E).1 with
      | next => exact ih hbody
      | wait => exact hbody
      | stop => exact hbody
    · exact h

theorem onRead_safe (h : Safe E a) (chunk : List UInt8) : Safe E (a.onRead E chunk) := by
  rw [onRead]
  split_ifs with hopen
  · dsimp only
    have hread := h.of_socket E (a.socket.readHandlerInternal false chunk).2
    split_ifs
    · have hloop := readLoop_safe E 3 hread
      split
      · exact hloop.of_socket E _
      · exact hloop
    · exact hread
  · exact h

theorem handled_sendPacket (a : AuthSession σ) (packet : List UInt8) :
    (a.sendPacket packet).handled = a.handled := by
  obtain ⟨socket, heq, -, -⟩ := a.sendPacket_frame packet
  rw [heq]

theorem onAnswer_safe (h : Safe E a) (i : ℕ) (answer : (q : Query) → q.Answer) :
    Safe E (a.onAnswer E i answer) := by
  have hhandled : (a.onAnswer E i answer).handled = a.handled := by
    rw [onAnswer]
    split
    · rfl
    · exact handled_sendPacket _ _
  refine ⟨onAnswer_phase E h.phase i answer, ?_, ?_⟩
  · rw [challenges, hhandled]
    exact h.challenges_le
  · rw [hhandled]
    exact h.logonProofs

/-- **Every step keeps a session safe.** -/
theorem step_safe (h : Safe E a) (e : Event) : Safe E (a.step E e) := by
  cases e with
  | read chunk => exact onRead_safe E h chunk
  | readError => exact h.of_socket E _
  | timeout => exact h.of_socket E _
  | answer i answer => exact onAnswer_safe E h i answer

/-- A new connection. -/
theorem safe_new : Safe E ({} : AuthSession σ) :=
  ⟨.start rfl rfl rfl rfl, Nat.zero_le _, fun _ hc => absurd hc not_mem_nil⟩

/-- **A session is authenticated only by a valid proof.** In every run of a new connection, over
any bytes of the client in any chunks, failing reads, timeouts and answers to any of the pending
queries at any time: the status is `STATUS_AUTHED` or `STATUS_WAITING_FOR_REALM_LIST` only after
a valid logon proof or a valid reconnect proof, at most one challenge command is handled, and
`HandleLogonProof` meets an `SRP6` object that has not been used. -/
theorem authenticated_of_status (events : List Event) : let a := events.foldl (step E) {}
    (a.state.status = .authed ∨ a.state.status = .waitingForRealmList → Authenticated E a) ∧
      a.challenges ≤ 1 ∧
      ∀ c ∈ a.handled, c.cmd = .logonProof → ∃ srp6, c.before.srp6 = some srp6 ∧
        srp6.used = false := by
  have hall : Run.Along (step E) (fun _ _ => True) {} events :=
    Run.along_of_forall (fun _ _ => trivial) _ _
  have hsafe : Safe E (events.foldl (step E) {}) :=
    Run.Along.invariant (Safe E) (fun _ e h _ => step_safe E h e) (safe_new E) hall
  refine ⟨?_, hsafe.challenges_le, hsafe.logonProofs⟩
  exact fun hstatus => hsafe.phase.auth_of_status hstatus

end AuthSession

end IscServer
