import IscServer.Library.LittleEndian
import Mathlib.Data.ZMod.Basic

/-!
# SRP6 Key Agreement

`Trinity::Crypto::SRP6` (`common/Cryptography/Authentication/SRP6.h`, `SRP6.cpp`): the server
side of the login protocol. The server stores a salt and a verifier `v = g ^ x mod N` for every
account, `x` a hash of the salt, the name and the password. In a login both sides make up a
secret, exchange public keys, and arrive at the same session key only if the client knows the
password.

`BigNumber` is `ℕ`, read from and written to byte arrays with the least significant byte first;
SHA1 is a parameter, a function from the bytes hashed to a digest of 20 bytes. Failed assertions
are errors.

## Main results

* `secret_eq`: the two ways to compute the secret agree in every commutative ring.
* `serverSecret_eq_clientSecret`: the server and a client with the password get the same bytes.
* `verifyChallengeResponse_spec`: **the server accepts the proof of a client with the password
  and returns its session key; it returns no other key, on no other proof, and none at all for a
  public key divisible by `N`**.
-/

namespace IscServer

namespace Crypto

open LittleEndian

/-- `SHA1::Digest`. -/
abbrev Digest := Vector UInt8 20

/-- `SRP6::Salt`. -/
abbrev Salt := Vector UInt8 32

/-- `SRP6::Verifier`. -/
abbrev Verifier := Vector UInt8 32

/-- `SRP6::EphemeralKey`. -/
abbrev EphemeralKey := Vector UInt8 32

/-- `SessionKey`. -/
abbrev SessionKey := Vector UInt8 40

/-- A failed `ASSERT`. -/
inductive AssertFailure where
  | alreadyUsed
  deriving DecidableEq, Repr

/-- `BigNumber(std::array)`. -/
def bigNumber {n : ℕ} (bytes : Vector UInt8 n) : ℕ :=
  ofBytes bytes.toList

/-- `BigNumber::ModExp`. -/
def modExp (base exponent modulus : ℕ) : ℕ :=
  base ^ exponent % modulus

namespace Srp6

/-- `SRP6::g`. -/
def g : Vector UInt8 1 := #v[7]

/-- `SRP6::N`, the reverse of the hexadecimal number in the source. -/
def N : Vector UInt8 32 :=
  #v[0xB7, 0x9B, 0x3E, 0x2A, 0x87, 0x82, 0x3C, 0xAB, 0x8F, 0x5E, 0xBF, 0xBF, 0x8E, 0xB1, 0x01, 0x08,
    0x53, 0x50, 0x06, 0x29, 0x8B, 0x5B, 0xAD, 0xBD, 0x5B, 0x53, 0xE1, 0x89, 0x5E, 0x64, 0x4B, 0x89]

/-- `SRP6::_g`. -/
def generator : ℕ := bigNumber g

/-- `SRP6::_N`. -/
def modulus : ℕ := bigNumber N

/-- `SRP6`. -/
structure Object where
  I : Digest
  b : ℕ
  v : ℕ
  s : Salt
  B : EphemeralKey
  used : Bool := false
  deriving DecidableEq

section Hash

variable (H : List UInt8 → Digest)

/-- `SHA1::GetDigestOf(salt, SHA1::GetDigestOf(username, ":", password))`. -/
def passwordHash (username password : List UInt8) (salt : Salt) : Digest :=
  H (salt.toList ++ (H (username ++ [0x3A] ++ password)).toList)

/-- `CalculateVerifier`. -/
def calculateVerifier (username password : List UInt8) (salt : Salt) : Verifier :=
  toBytes 32 (modExp generator (bigNumber (passwordHash H username password salt)) modulus)

/-- `_B`. -/
def publicKey (b v : ℕ) : EphemeralKey :=
  toBytes 32 ((modExp generator b modulus + v * 3) % modulus)

/-- The constructor, with the random bytes of the secret. -/
def new (username : List UInt8) (salt : Salt) (verifier : Verifier) (secret : Vector UInt8 32) :
    Object where
  I := H username
  b := bigNumber secret
  v := bigNumber verifier
  s := salt
  B := publicKey (bigNumber secret) (bigNumber verifier)

/-- The number of zero bytes at the front, made even, as an offset into each half. -/
def interleaveOffset (S : EphemeralKey) : ℕ :=
  let p := (S.toList.takeWhile (· == 0)).length
  let p := if p % 2 = 1 then p + 1 else p
  p / 2

/-- `SHA1Interleave`: the bytes at even and at odd positions are hashed, both without the zeros
at the front, and the two hashes are interleaved. -/
def sha1Interleave (S : EphemeralKey) : SessionKey :=
  let buf0 : Vector UInt8 16 := Vector.ofFn fun i => S[2 * i.val + 0]
  let buf1 : Vector UInt8 16 := Vector.ofFn fun i => S[2 * i.val + 1]
  let p := interleaveOffset S
  let hash0 := H (buf0.toList.drop p)
  let hash1 := H (buf1.toList.drop p)
  Vector.ofFn fun i => if i.val % 2 = 0 then hash0[i.val / 2] else hash1[i.val / 2]

/-- `NgHash`. -/
def ngHash : Digest :=
  Vector.zipWith (· ^^^ ·) (H N.toList) (H g.toList)

/-- The hash by which the client proves that it has the session key. -/
def proof (I : Digest) (s : Salt) (A B : EphemeralKey) (K : SessionKey) : Digest :=
  H ((ngHash H).toList ++ I.toList ++ s.toList ++ A.toList ++ B.toList ++ K.toList)

/-- The secret of the server, for the public key of a client. -/
def serverSecret (o : Object) (A : EphemeralKey) : EphemeralKey :=
  let u := bigNumber (H (A.toList ++ o.B.toList))
  toBytes 32 (modExp (bigNumber A * modExp o.v u modulus) o.b modulus)

/-- `VerifyChallengeResponse`. -/
def verifyChallengeResponse (o : Object) (A : EphemeralKey) (clientM : Digest) :
    Except AssertFailure (Option SessionKey × Object) :=
  if o.used then .error .alreadyUsed
  else
    let o := { o with used := true }
    if bigNumber A % modulus = 0 then .ok (none, o)
    else
      let K := sha1Interleave H (serverSecret H o A)
      if proof H o.I o.s A o.B K = clientM then .ok (some K, o) else .ok (none, o)

/-! ### The client -/

/-- The public key of a client with secret `a`. -/
def clientPublicKey (a : ℕ) : EphemeralKey :=
  toBytes 32 (generator ^ a % modulus)

/-- The secret of a client that knows the password. -/
def clientSecret (username password : List UInt8) (s : Salt) (a : ℕ) (B : EphemeralKey) :
    EphemeralKey :=
  let x := bigNumber (passwordHash H username password s)
  let u := bigNumber (H ((clientPublicKey a).toList ++ B.toList))
  let S : ℤ := ((bigNumber B : ℤ) - 3 * (generator : ℤ) ^ x) ^ (a + u * x) % (modulus : ℤ)
  toBytes 32 S.toNat

/-- The session key of the client. -/
def clientKey (username password : List UInt8) (s : Salt) (a : ℕ) (B : EphemeralKey) :
    SessionKey :=
  sha1Interleave H (clientSecret H username password s a B)

/-- The proof of the client. -/
def clientProof (username password : List UInt8) (s : Salt) (a : ℕ) (B : EphemeralKey) :
    Digest :=
  proof H (H username) s (clientPublicKey a) B (clientKey H username password s a B)

end Hash

/-! ### Agreement on the secret -/

/-- **The two secrets** in a commutative ring: the verifier is known to both sides, and it is
all that is hidden in the public key of the server. -/
theorem secret_eq {R : Type} [CommRing R] (γ c : R) (a b u x : ℕ) :
    (γ ^ a * (γ ^ x) ^ u) ^ b = (γ ^ b + γ ^ x * c - c * γ ^ x) ^ (a + u * x) := by
  ring

theorem modulus_pos : 0 < modulus := by
  decide

/-- Everything modulo `N` fits into 32 bytes. -/
theorem modulus_lt : modulus < (2 ^ 8) ^ 32 := by
  decide

/-- Numbers modulo `N` are read back from their bytes. -/
theorem bigNumber_toBytes_mod (n : ℕ) : bigNumber (toBytes 32 (n % modulus)) = n % modulus :=
  ofBytes_toBytes ((Nat.mod_lt _ modulus_pos).trans modulus_lt)

/-- A number that is equal to an integer modulo `N`, in its bytes. -/
theorem toBytes_mod_eq {n : ℕ} {z : ℤ} (h : (n : ZMod modulus) = (z : ZMod modulus)) :
    toBytes 32 (n % modulus) = toBytes 32 (z % (modulus : ℤ)).toNat := by
  have hint : ((n : ℤ) : ZMod modulus) = (z : ZMod modulus) := by rw [Int.cast_natCast, h]
  have hmod : (n : ℤ) % (modulus : ℤ) = z % (modulus : ℤ) :=
    (ZMod.intCast_eq_intCast_iff' _ _ _).mp hint
  rw [← hmod, ← Int.natCast_mod, Int.toNat_natCast]

variable (H : List UInt8 → Digest) {o : Object}

/-- **Server and client agree**: the bytes of the secret are the same. -/
theorem serverSecret_eq_clientSecret (username password : List UInt8) (salt : Salt)
    (secret : Vector UInt8 32) (a : ℕ)
    (ho : o = new H username salt (calculateVerifier H username password salt) secret) :
    serverSecret H o (clientPublicKey a) = clientSecret H username password salt a o.B := by
  have hv : o.v = generator ^ bigNumber (passwordHash H username password salt) % modulus := by
    rw [ho]
    exact bigNumber_toBytes_mod _
  have hA : bigNumber (clientPublicKey a) = generator ^ a % modulus := bigNumber_toBytes_mod _
  have hB : bigNumber o.B = (generator ^ o.b % modulus + o.v * 3) % modulus := by
    rw [ho]
    exact bigNumber_toBytes_mod _
  refine toBytes_mod_eq ?_
  rw [modExp, hA, hB, hv]
  push_cast [ZMod.natCast_mod]
  exact secret_eq _ _ _ _ _ _

/-- The public key of a client is never divisible by `N`. -/
theorem clientPublicKey_mod_ne_zero (a : ℕ) : bigNumber (clientPublicKey a) % modulus ≠ 0 := by
  have hcoprime : Nat.Coprime (generator ^ a) modulus := by
    refine Nat.Coprime.pow_left a ?_
    decide +kernel
  intro hzero
  rw [clientPublicKey, bigNumber_toBytes_mod, Nat.mod_mod] at hzero
  have hone := Nat.Coprime.eq_one_of_dvd hcoprime.symm (Nat.dvd_of_mod_eq_zero hzero)
  exact absurd hone (by decide)

/-! ### Verification -/

/-- What a verification of an unused object comes to. -/
theorem verifyChallengeResponse_cases (H : List UInt8 → Digest) {o : Object}
    (hused : o.used = false) (A : EphemeralKey) (clientM : Digest) :
    (bigNumber A % modulus = 0 ∧
      verifyChallengeResponse H o A clientM = .ok (none, { o with used := true })) ∨
    (bigNumber A % modulus ≠ 0 ∧
      proof H o.I o.s A o.B (sha1Interleave H (serverSecret H o A)) ≠ clientM ∧
      verifyChallengeResponse H o A clientM = .ok (none, { o with used := true })) ∨
    (bigNumber A % modulus ≠ 0 ∧
      proof H o.I o.s A o.B (sha1Interleave H (serverSecret H o A)) = clientM ∧
      verifyChallengeResponse H o A clientM =
        .ok (some (sha1Interleave H (serverSecret H o A)), { o with used := true })) := by
  rw [verifyChallengeResponse, hused, if_neg Bool.false_ne_true]
  dsimp only
  split_ifs with hzero hproof
  · exact Or.inl ⟨hzero, rfl⟩
  · exact Or.inr (Or.inr ⟨hzero, hproof, rfl⟩)
  · exact Or.inr (Or.inl ⟨hzero, hproof, rfl⟩)

/-- A verification that returns a key has seen the proof for this key. -/
theorem eq_of_verifyChallengeResponse {o' : Object} (hused : o.used = false) {A : EphemeralKey}
    {clientM : Digest} {K : SessionKey}
    (hok : verifyChallengeResponse H o A clientM = .ok (some K, o')) :
    K = sha1Interleave H (serverSecret H o A) ∧ clientM = proof H o.I o.s A o.B K := by
  rcases verifyChallengeResponse_cases H hused A clientM with
    ⟨-, heq⟩ | ⟨-, -, heq⟩ | ⟨-, hproof, heq⟩
  · have hkey := (Prod.mk.inj (Except.ok.inj (heq.symm.trans hok))).1
    exact absurd hkey (Option.some_ne_none _).symm
  · have hkey := (Prod.mk.inj (Except.ok.inj (heq.symm.trans hok))).1
    exact absurd hkey (Option.some_ne_none _).symm
  · have hkey := (Prod.mk.inj (Except.ok.inj (heq.symm.trans hok))).1
    rw [← Option.some.inj hkey]
    exact ⟨rfl, hproof.symm⟩

/-- A public key divisible by `N` is refused. -/
theorem verifyChallengeResponse_of_dvd (hused : o.used = false) {A : EphemeralKey}
    (hdvd : modulus ∣ bigNumber A) (clientM : Digest) :
    verifyChallengeResponse H o A clientM = .ok (none, { o with used := true }) := by
  have hzero := Nat.mod_eq_zero_of_dvd hdvd
  rcases verifyChallengeResponse_cases H hused A clientM with
    ⟨-, heq⟩ | ⟨hne, -, -⟩ | ⟨hne, -, -⟩
  · exact heq
  · exact absurd hzero hne
  · exact absurd hzero hne

/-- A client with the password is answered with its own key. -/
theorem verifyChallengeResponse_client (username password : List UInt8) (salt : Salt)
    (secret : Vector UInt8 32) (a : ℕ)
    (ho : o = new H username salt (calculateVerifier H username password salt) secret) :
    verifyChallengeResponse H o (clientPublicKey a)
        (clientProof H username password salt a o.B) =
      .ok (some (clientKey H username password salt a o.B), { o with used := true }) := by
  have hkey : sha1Interleave H (serverSecret H o (clientPublicKey a)) =
      clientKey H username password salt a o.B := by
    rw [serverSecret_eq_clientSecret H username password salt secret a ho, clientKey]
  have hused : o.used = false := by rw [ho]; rfl
  have hI : o.I = H username := by rw [ho]; rfl
  have hs : o.s = salt := by rw [ho]; rfl
  rcases verifyChallengeResponse_cases H hused (clientPublicKey a)
    (clientProof H username password salt a o.B) with ⟨hzero, -⟩ | ⟨-, hne, -⟩ | ⟨-, -, heq⟩
  · exact absurd hzero (clientPublicKey_mod_ne_zero a)
  · rw [hkey, hI, hs, clientProof] at hne
    exact absurd rfl hne
  · rw [heq, hkey]

/-- **SRP6 key agreement**, for every hash function, name, salt and server secret. A client that
knows the password, with any secret of its own, is answered with the session key that it has
computed itself. An object for any verifier returns only its own session key, only if the proof
is the hash over it, and nothing for a public key divisible by `N`. -/
theorem verifyChallengeResponse_spec (H : List UInt8 → Digest) (username : List UInt8)
    (salt : Salt) (secret : Vector UInt8 32) :
    (∀ (password : List UInt8) (a : ℕ),
      let o := new H username salt (calculateVerifier H username password salt) secret
      verifyChallengeResponse H o (clientPublicKey a)
          (clientProof H username password salt a o.B) =
        .ok (some (clientKey H username password salt a o.B), { o with used := true })) ∧
    ∀ (verifier : Verifier) (A : EphemeralKey) (clientM : Digest),
      let o := new H username salt verifier secret
      (∀ K o', verifyChallengeResponse H o A clientM = .ok (some K, o') →
        K = sha1Interleave H (serverSecret H o A) ∧ clientM = proof H (H username) salt A o.B K) ∧
      (modulus ∣ bigNumber A →
        verifyChallengeResponse H o A clientM = .ok (none, { o with used := true })) := by
  constructor
  · intro password a o
    exact verifyChallengeResponse_client H username password salt secret a rfl
  · intro verifier A clientM o
    constructor
    · intro K o' hok
      exact eq_of_verifyChallengeResponse H rfl hok
    · intro hdvd
      exact verifyChallengeResponse_of_dvd H rfl hdvd clientM

/-- Hashing to the length of the text: an account `A` with password `B`, both secrets small. -/
theorem verifyChallengeResponse_spec_length :
    let H : List UInt8 → Digest := fun bytes => Vector.replicate 20 (UInt8.ofNat bytes.length)
    let salt : Salt := Vector.replicate 32 1
    let secret : Vector UInt8 32 := toBytes 32 3
    let o := new H [0x41] salt (calculateVerifier H [0x41] [0x42] salt) secret
    let K := clientKey H [0x41] [0x42] salt 5 o.B
    verifyChallengeResponse H o (clientPublicKey 5) (clientProof H [0x41] [0x42] salt 5 o.B) =
        .ok (some K, { o with used := true }) ∧
      K = sha1Interleave H (serverSecret H o (clientPublicKey 5)) ∧
      verifyChallengeResponse H o N (H []) = .ok (none, { o with used := true }) := by
  intro H salt secret o K
  obtain ⟨hclient, hserver⟩ := verifyChallengeResponse_spec H [0x41] salt secret
  have hok := hclient [0x42] 5
  exact ⟨hok, ((hserver _ _ _).1 _ _ hok).1, (hserver _ N _).2 (dvd_refl _)⟩

end Srp6

end Crypto

end IscServer
