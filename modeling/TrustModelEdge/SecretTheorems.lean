/-
TrustModelEdge.SecretTheorems — what a stored client hash verifies.

`Stores` reads a hash off its text without the program's splitting, and
`Verifies` says what the text claims of a secret. Between the two stand
three calls with domains of their own: encoding the secret and the salt,
deriving the key, comparing the digests. `Checkable` says that all three
take what they are given, and the verify is exact just there
(`verify_exact_iff`).
-/
import TrustModelEdge.Routes.DecideTheorems

namespace TrustModelEdge.OAuth

open Py Policy

/-! ## The stored text -/

def dollar : CodePoint := CodePoint.ofChar '$'

section Stored

variable [PyRuntime]

/-- The text is `pbkdf2_sha256$n$salt$h`, `n` an integer literal. -/
def Stores (encodedHash : Str) (n : Int) (salt h : Str) : Prop :=
  ∃ literal, dollar ∉ literal ∧ dollar ∉ salt ∧ parseInt? literal = some n ∧
    encodedHash =
      ("pbkdf2_sha256" : Str) ++ dollar :: (literal ++ dollar :: (salt ++ dollar :: h))

theorem splitMax_stores {encodedHash : Str} {n : Int} {salt h : Str}
    (hs : Stores encodedHash n salt h) :
    ∃ literal, parseInt? literal = some n ∧
      splitMax dollar 3 encodedHash = [("pbkdf2_sha256" : Str), literal, salt, h] := by
  obtain ⟨literal, hliteral, hsalt, hn, rfl⟩ := hs
  refine ⟨literal, hn, ?_⟩
  rw [splitMax_append (by decide), splitMax_append hliteral, splitMax_append hsalt]
  rfl

theorem stores_of_splitMax {encodedHash literal salt h : Str} {n : Int}
    (hs : splitMax dollar 3 encodedHash = [("pbkdf2_sha256" : Str), literal, salt, h])
    (hn : parseInt? literal = some n) : Stores encodedHash n salt h := by
  obtain ⟨b, -, rfl, hb⟩ := splitMax_eq_cons_iff.mp hs
  obtain ⟨c, hliteral, rfl, hc⟩ := splitMax_eq_cons_iff.mp hb
  obtain ⟨d, hsalt, rfl, hd⟩ := splitMax_eq_cons_iff.mp hc
  obtain rfl : d = h := List.singleton_inj.mp hd
  exact ⟨literal, hliteral, hsalt, hn, rfl⟩

end Stored

/-! ## The verify -/

section Verify

variable (hash : HashLib)

/-- The key that `pbkdf2_hmac` derives from the texts. -/
def derived (secret salt : Str) (n : Int) : Except Exc Bytes := do
  let secretBytes ← encode secret
  let saltBytes ← encode salt
  hash.pbkdf2 secretBytes saltBytes n

variable [PyRuntime]

/-- The text stores the hash of the secret. -/
def Verifies (secret encodedHash : Str) : Prop :=
  ∃ n salt h key, Stores encodedHash n salt h ∧ 1 ≤ n ∧ derived hash secret salt n = .ok key ∧
    strip h = b64encode key

/-- If the text stores a hash, then a key can be derived, and the stored digest
is one that `compare_digest` takes. -/
def Checkable (secret encodedHash : Str) : Prop :=
  ∀ n salt h, Stores encodedHash n salt h →
    (∃ key, derived hash secret salt n = .ok key) ∧ isAscii (strip h) = true

variable {hash} {secret encodedHash : Str}

theorem verify_stores {n : Int} {salt h : Str} (hs : Stores encodedHash n salt h) :
    verifyDjangoPbkdf2 hash secret encodedHash =
      derived hash secret salt n >>= fun key => compareDigest (b64encode key) (strip h) := by
  obtain ⟨literal, hn, hsplit⟩ := splitMax_stores hs
  have hstrip : ∀ key, strip (b64encode key) = b64encode key :=
    fun key => strip_of_graphic (isGraphic_b64encode key)
  unfold verifyDjangoPbkdf2 derived
  rw [show CodePoint.ofChar '$' = dollar from rfl, hsplit]
  simp [hn, hstrip]

theorem verify_not_stores (h : ¬ ∃ n salt digest, Stores encodedHash n salt digest) :
    verifyDjangoPbkdf2 hash secret encodedHash = .ok false := by
  unfold verifyDjangoPbkdf2
  split
  · rename_i algorithm literal salt digest hsplit
    split
    · rfl
    · rename_i halgorithm
      rw [not_not] at halgorithm
      subst halgorithm
      cases hn : parseInt? literal with
      | none => rfl
      | some n => exact absurd ⟨n, salt, digest, stores_of_splitMax hsplit hn⟩ h
  · rfl

omit [PyRuntime] in
theorem compareDigest_b64encode {key : Bytes} {digest : Str} {b : Bool} :
    compareDigest (b64encode key) digest = .ok b ↔
      isAscii digest = true ∧ (b = true ↔ digest = b64encode key) := by
  have hascii : isAscii (b64encode key) = true := isAscii_of_graphic (isGraphic_b64encode key)
  unfold compareDigest
  rw [hascii, Bool.true_and]
  cases isAscii digest with
  | false => simp
  | true =>
    simp only [if_true, Except.ok.injEq, true_and]
    constructor
    · rintro rfl
      rw [beq_iff_eq]
      exact eq_comm
    · intro h
      rw [Bool.eq_iff_iff, h, beq_iff_eq]
      exact eq_comm

theorem stores_unique {n n' : Int} {salt salt' digest digest' : Str}
    (h : Stores encodedHash n salt digest) (h' : Stores encodedHash n' salt' digest') :
    n' = n ∧ salt' = salt ∧ digest' = digest := by
  obtain ⟨literal, hn, hsplit⟩ := splitMax_stores h
  obtain ⟨literal', hn', hsplit'⟩ := splitMax_stores h'
  rw [hsplit] at hsplit'
  simp only [List.cons.injEq, true_and, and_true] at hsplit'
  obtain ⟨rfl, rfl, rfl⟩ := hsplit'
  rw [hn] at hn'
  exact ⟨(Option.some.inj hn').symm, rfl, rfl⟩

/-- What the verify returns of a text that stores a hash. -/
theorem verify_ok_iff {n : Int} {salt digest : Str} (hs : Stores encodedHash n salt digest)
    {b : Bool} :
    verifyDjangoPbkdf2 hash secret encodedHash = .ok b ↔
      ∃ key, derived hash secret salt n = .ok key ∧ isAscii (strip digest) = true ∧
        (b = true ↔ strip digest = b64encode key) := by
  rw [verify_stores hs, bind_eq_ok]
  simp only [compareDigest_b64encode]

/-- The verify returns exactly when everything it passes to the library is taken. -/
theorem checkable_iff_returns :
    Checkable hash secret encodedHash ↔
      ∃ b, verifyDjangoPbkdf2 hash secret encodedHash = .ok b := by
  by_cases hstores : ∃ n salt digest, Stores encodedHash n salt digest
  · obtain ⟨n, salt, digest, hs⟩ := hstores
    constructor
    · intro h
      obtain ⟨⟨key, hkey⟩, hascii⟩ := h n salt digest hs
      exact ⟨decide (strip digest = b64encode key),
        (verify_ok_iff hs).mpr ⟨key, hkey, hascii, decide_eq_true_iff⟩⟩
    · rintro ⟨b, hb⟩ n' salt' digest' hs'
      obtain ⟨rfl, rfl, rfl⟩ := stores_unique hs hs'
      obtain ⟨key, hkey, hascii, -⟩ := (verify_ok_iff hs).mp hb
      exact ⟨⟨key, hkey⟩, hascii⟩
  · constructor
    · exact fun _ => ⟨false, verify_not_stores hstores⟩
    · exact fun _ n salt digest hs => absurd ⟨n, salt, digest, hs⟩ hstores

/-- A verify that returns is right. -/
theorem verify_sound (hrefuses : ∀ p s n, n < 1 → hash.pbkdf2 p s n = .error .valueError)
    {b : Bool} (hb : verifyDjangoPbkdf2 hash secret encodedHash = .ok b) :
    b = true ↔ Verifies hash secret encodedHash := by
  by_cases hstores : ∃ n salt digest, Stores encodedHash n salt digest
  · obtain ⟨n, salt, digest, hs⟩ := hstores
    obtain ⟨key, hkey, -, heq⟩ := (verify_ok_iff hs).mp hb
    have hcount : 1 ≤ n := by
      by_contra hlow
      obtain ⟨p, -, hkey⟩ := bind_eq_ok.mp hkey
      obtain ⟨q, -, hkey⟩ := bind_eq_ok.mp hkey
      rw [hrefuses p q n (by omega)] at hkey
      cases hkey
    rw [heq]
    constructor
    · exact fun hdigest => ⟨n, salt, digest, key, hs, hcount, hkey, hdigest⟩
    · rintro ⟨n', salt', digest', key', hs', -, hkey', hdigest⟩
      obtain ⟨rfl, rfl, rfl⟩ := stores_unique hs hs'
      rw [hkey] at hkey'
      rw [hdigest, Except.ok.inj hkey']
  · rw [verify_not_stores hstores] at hb
    obtain rfl := Except.ok.inj hb
    constructor
    · rintro ⟨⟩
    · rintro ⟨n, salt, digest, -, hs, -⟩
      exact absurd ⟨n, salt, digest, hs⟩ hstores

end Verify

/-! ## The clients -/

section Clients

variable [PyRuntime] (hash : HashLib)

/-- The call ends in a value or in an `InvalidClient`. -/
def Decides {α : Type} (r : Except OAuthError α) : Prop :=
  ∀ e, r = .error e → ∃ message, e = .invalidClient message

/-- The hash that `authenticate_client` verifies. -/
def hashToVerify (clientId : Str) (authorized : List AuthorizedClient) : Str :=
  match findAuthorizedClient clientId authorized with
  | none => sentinelHash hash
  | some record => record.clientSecretHash

variable {hash}

theorem decides_iff_returns {clientId secret : Str} {authorized : List AuthorizedClient} :
    Decides (authenticateClient hash clientId secret authorized) ↔
      ∃ b, verifyDjangoPbkdf2 hash secret (hashToVerify hash clientId authorized) = .ok b := by
  unfold authenticateClient hashToVerify
  cases findAuthorizedClient clientId authorized with
  | none =>
    dsimp only
    cases verifyDjangoPbkdf2 hash secret (sentinelHash hash) with
    | error e => simp [Decides, raising, bind, Except.bind]
    | ok b => simp [Decides, raising, bind, Except.bind]
  | some record =>
    dsimp only
    cases verifyDjangoPbkdf2 hash secret record.clientSecretHash with
    | error e => simp [Decides, raising, bind, Except.bind]
    | ok b => cases b <;> simp [Decides, raising, bind, Except.bind]

end Clients

/-- The verify raises nothing and is exact, and a client's authentication ends in a
record or an `InvalidClient`, exactly where the hash to verify can be checked
against the secret. -/
theorem verify_exact_iff [PyRuntime] (hash : HashLib)
    (hrefuses : ∀ p s n, n < 1 → hash.pbkdf2 p s n = .error .valueError) :
    (∀ secret encodedHash,
      (∃ b, verifyDjangoPbkdf2 hash secret encodedHash = .ok b ∧
          (b = true ↔ Verifies hash secret encodedHash)) ↔
        Checkable hash secret encodedHash) ∧
    ∀ clientId secret authorized,
      Decides (authenticateClient hash clientId secret authorized) ↔
        Checkable hash secret (hashToVerify hash clientId authorized) := by
  refine ⟨fun secret encodedHash => ?_, fun clientId secret authorized => ?_⟩
  · rw [checkable_iff_returns]
    constructor
    · rintro ⟨b, hb, -⟩
      exact ⟨b, hb⟩
    · rintro ⟨b, hb⟩
      exact ⟨b, hb, verify_sound hrefuses hb⟩
  · rw [checkable_iff_returns, decides_iff_returns]

/-- A count below one. -/
def zeroCountHash : Str := "pbkdf2_sha256$0$salt$h"

/-- A digest beyond ASCII. -/
def accentedHash : Str := "pbkdf2_sha256$1$salt$\u00e9"

theorem demoHash_refuses (p s : Bytes) (n : Int) (hn : n < 1) :
    Routes.demoHash.pbkdf2 p s n = .error .valueError := by
  unfold Routes.demoHash
  simp only
  rw [if_neg (by omega), if_neg (by omega)]

/-- A digest of something else. -/
def otherHash : Str := "pbkdf2_sha256$1$salt$h"

/-- The secret verifies against the hash of the client and not against another one;
a count below one makes the verify raise. -/
theorem verify_exact_iff_demo :
    @Verifies Routes.demoHash asciiRuntime "secret" Routes.demoClient.clientSecretHash ∧
      ¬ @Verifies Routes.demoHash asciiRuntime "secret" otherHash ∧
      ¬ @Checkable Routes.demoHash asciiRuntime "secret" zeroCountHash := by
  have hexact := (@verify_exact_iff asciiRuntime Routes.demoHash demoHash_refuses).1 "secret"
  have hruns : ∀ {stored : Str} {b : Bool},
      @verifyDjangoPbkdf2 asciiRuntime Routes.demoHash "secret" stored = .ok b →
      (b = true ↔ @Verifies Routes.demoHash asciiRuntime "secret" stored) := by
    intro stored b hb
    obtain ⟨b', hb', hverifies⟩ := (hexact stored).mpr
      ((@checkable_iff_returns Routes.demoHash asciiRuntime "secret" stored).mpr ⟨b, hb⟩)
    obtain rfl := Except.ok.inj (hb.symm.trans hb')
    exact hverifies
  refine ⟨(hruns (b := true) (by decide +kernel)).mp rfl, fun h => ?_, fun hcheck => ?_⟩
  · cases (hruns (b := false) (by decide +kernel)).mpr h
  · obtain ⟨b, hb, -⟩ := (hexact zeroCountHash).mpr hcheck
    have hrun : @verifyDjangoPbkdf2 asciiRuntime Routes.demoHash "secret" zeroCountHash =
        .error .valueError := by decide +kernel
    rw [hrun] at hb
    cases hb

/-- Stored texts and secrets that make the verify raise, and the authentication with
it. -/
theorem malformed_hash_raises :
    let verify := @verifyDjangoPbkdf2 asciiRuntime Routes.demoHash
    verify "secret" zeroCountHash = .error .valueError ∧
      verify "secret" accentedHash = .error .typeError ∧
      verify [0xd800] Routes.demoClient.clientSecretHash = .error .unicodeEncodeError ∧
      ¬ Decides (@authenticateClient asciiRuntime Routes.demoHash "client-1" "secret"
        [{ Routes.demoClient with clientSecretHash := zeroCountHash }]) := by
  intro verify
  have hauth : @authenticateClient asciiRuntime Routes.demoHash "client-1" "secret"
      [{ Routes.demoClient with clientSecretHash := zeroCountHash }] =
        .error (.other .valueError) := by decide +kernel
  refine ⟨by decide +kernel, by decide +kernel, by decide +kernel, fun h => ?_⟩
  obtain ⟨message, hmessage⟩ := h _ hauth
  cases hmessage

end TrustModelEdge.OAuth
